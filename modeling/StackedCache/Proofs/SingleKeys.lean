import StackedCache.Proofs.Concurrency.Balance
import StackedCache.Proofs.Sequential
import StackedCache.Proofs.Settings

/-!
# Single keys against one map

While every layer shows what one map with deadlines holds, the operations on
single keys answer as that map does, and leave the layers so that they show
what the map holds afterwards.
-/

namespace StackedCache

open Simulation Concurrency

theorem Settings.spread_isZero (settings : Settings) {ttl : Duration} (h : ttl.isZero = false)
    (draws : Nat → Rat) : (settings.spread ttl draws).1.isZero = false := by
  unfold spread
  split
  · exact h
  · exact Jitter.scale_isZero ..

-- ---------------------------------------------------------------------------
-- What the layers show
-- ---------------------------------------------------------------------------

/-- Every layer shows what the map holds. -/
def Shows (stack : Stack) (now : Instant) (storage : Storage) (map : TtlMap) : Prop :=
  ∀ tier ∈ stack.tiers, ∀ key t, now ≤ t → t < Instant.horizon →
    ((storage.items tier.slot).visible? (stack.fullKey key) t).bind Record.decode =
      map.record? key t

structure Refines (stack : Stack) (scene : Scene) (map : TtlMap) : Prop where
  shows : Shows stack scene.now scene.storage map
  draws : scene.draws = map.draws

/-- A program answers `a` at once, off all flights, and leaves the layers showing a map. -/
def Realizes {α : Type} (stack : Stack) (p : CacheProc ScriptedLoader α) (scene : Scene) (a : α)
    (map : TtlMap) : Prop :=
  ∃ scene', Does p scene a scene' ∧ scene'.now = scene.now ∧ scene'.guard = scene.guard ∧
    Refines stack scene' map

section
variable {α β : Type} {stack : Stack} {scene : Scene} {map map' : TtlMap} {now : Instant}
  {storage storage' : Storage} {key : String}

theorem Realizes.pure (h : Refines stack scene map) (a : α) :
    Realizes stack (pure a) scene a map :=
  ⟨scene, rfl, rfl, rfl, h⟩

theorem Realizes.bind {p : CacheProc ScriptedLoader α} {f : α → CacheProc ScriptedLoader β} {a : α}
    {b : β} (h : Realizes stack p scene a map)
    (hf : ∀ scene' : Scene, scene'.now = scene.now → Refines stack scene' map →
      Realizes stack (f a) scene' b map') : Realizes stack (p >>= f) scene b map' := by
  obtain ⟨scene', hdoes, hnow, hguard, hrefines⟩ := h
  obtain ⟨scene'', hdoes', hnow', hguard', hrefines'⟩ := hf scene' hnow hrefines
  exact ⟨scene'', hdoes.bind hdoes', hnow'.trans hnow, hguard'.trans hguard, hrefines'⟩

theorem Shows.kept (h : Shows stack now storage map) (hkept : Storage.Kept now storage storage') :
    Shows stack now storage' map := by
  intro tier ht key t hle hlt
  rw [hkept tier.slot (stack.fullKey key) t hle hlt]
  exact h tier ht key t hle hlt

theorem Shows.changed {shown : Instant → Option Bytes} (h : Shows stack now storage map)
    (hsees : ∀ tier ∈ stack.tiers, storage'.Sees now tier.slot (stack.fullKey key) shown)
    (hkept : Storage.KeptBut now (stack.fullKey key) shown storage storage')
    (hmap : ∀ k t, map'.record? k t =
      if k = key then (shown t).bind Record.decode else map.record? k t) :
    Shows stack now storage' map' := by
  intro tier ht k t hle hlt
  rw [hmap]
  split
  · rename_i hk
    subst hk
    rw [hsees tier ht t hle hlt]
  · rename_i hk
    rcases hkept tier.slot (stack.fullKey k) with hsame | ⟨heq, -⟩
    · rw [hsame t hle hlt]
      exact h tier ht k t hle hlt
    · exact absurd (Stack.fullKey_inj.mp heq) hk

theorem shownFor_decode {payload : Bytes} {record : Option Record} {ttl : Duration} {t : Instant}
    (httl : ttl.isZero = false) (hpayload : Record.decode payload = record) :
    (shownFor payload ttl now t).bind Record.decode =
      if t < now + ttl.nanos then record else none := by
  simp only [shownFor, httl, Bool.false_eq_true, false_or]
  split
  · exact hpayload
  · rfl

end

namespace Stack

open CacheProc Storage

variable {stack : Stack} {scene : Scene} {map : TtlMap} {key : String}

theorem realizes_get (hstack : stack.Usable) (h : Refines stack scene map)
    (hnow : scene.now < Instant.horizon) (key : String) :
    Realizes stack (stack.get key) scene (.ok (map.find key scene.now)) map := by
  have hshows (tier : Tier) (ht : tier ∈ stack.tiers) :=
    h.shows tier ht key scene.now (Nat.le_refl _) hnow
  unfold TtlMap.find Stack.get
  cases hrecord : map.record? key scene.now with
  | none =>
    obtain ⟨storage, hread, hkept⟩ := does_readFrom_miss stack scene hnow
      (fun tier ht => (hshows tier ht).trans hrecord) []
    exact ⟨_, hread, rfl, rfl, h.shows.kept hkept, h.draws⟩
  | some record =>
    obtain ⟨tier, below, htiers⟩ := List.exists_cons_of_ne_nil hstack.layered
    obtain ⟨storage, hread, hkept⟩ := does_readFrom_hit stack
      ((hshows tier (htiers ▸ List.mem_cons_self)).trans hrecord) below
    rw [htiers]
    exact ⟨_, hread, rfl, rfl, h.shows.kept hkept, h.draws⟩

theorem realizes_write (h : Refines stack scene map) {payload : Bytes} {record : Record}
    (hpayload : Record.decode payload = some record) {ttl : Duration} (httl : ttl.isZero = false)
    (key : String) :
    Realizes stack
      (do
        let ttl ← stack.jittered ttl
        writeEach (stack.fullKey key) payload ttl (.ok ()) stack.tiers)
      scene (.ok ()) (map.write stack.settings scene.now key record ttl) := by
  obtain ⟨storage, hwrite, hsees, hkept⟩ := does_write stack scene (stack.fullKey key) payload ttl
  refine ⟨_, hwrite, rfl, rfl,
    h.shows.changed hsees hkept fun k t => ?_,
    congrArg (fun d => (stack.settings.spread ttl d).2) h.draws⟩
  rw [TtlMap.record?_write, ← h.draws,
    shownFor_decode (stack.settings.spread_isZero httl scene.draws) hpayload]

theorem realizes_set (hstack : stack.Usable) (h : Refines stack scene map) (key : String)
    {value : Bytes} (hvalue : value.length < 2 ^ 32) (ttl : Duration) :
    Realizes stack (stack.set key value ttl) scene (.ok ())
      (map.write stack.settings scene.now key (.positive (some value))
        (ttl.orElse stack.settings.defaultTtl)) :=
  realizes_write h (Record.decode_encode_alone hvalue) (Duration.isZero_orElse hstack.lasting) key

theorem realizes_setNegative (hstack : stack.Usable) (h : Refines stack scene map) (key : String) :
    Realizes stack (stack.setNegative key) scene (.ok ())
      (map.write stack.settings scene.now key .negative stack.settings.negativeTtl) :=
  realizes_write h (Record.decode_encodeNegative []) hstack.marking key

theorem realizes_delete (h : Refines stack scene map) (key : String) :
    Realizes stack (stack.delete key) scene (.ok ()) (map.erase key) := by
  obtain ⟨storage, hdelete, hsees, hkept⟩ := does_deleteEach scene (stack.fullKey key) stack.tiers
  exact ⟨_, hdelete, rfl, rfl,
    h.shows.changed hsees hkept fun k t => TtlMap.record?_erase map key k t, h.draws⟩

-- ---------------------------------------------------------------------------
-- Loads and flights
-- ---------------------------------------------------------------------------

end Stack

/-- A program answers `a` and leaves the layers showing a map, and all flights idle. -/
def Serves {α : Type} (stack : Stack) (p : CacheProc ScriptedLoader α) (scene : Scene) (a : α)
    (map : TtlMap) : Prop :=
  ∃ scene', Does p scene a scene' ∧ scene'.now = scene.now ∧ Idle scene'.guard ∧
    Refines stack scene' map

theorem Realizes.serves {α : Type} {stack : Stack} {p : CacheProc ScriptedLoader α} {scene : Scene}
    {a : α} {map : TtlMap} (h : Realizes stack p scene a map) (hidle : Idle scene.guard) :
    Serves stack p scene a map := by
  obtain ⟨scene', hdoes, hnow, hguard, hrefines⟩ := h
  exact ⟨scene', hdoes, hnow, hguard ▸ hidle, hrefines⟩

theorem Serves.map {α β : Type} {stack : Stack} {p : CacheProc ScriptedLoader α} {scene : Scene}
    {a : α} {map : TtlMap} (h : Serves stack p scene a map) (f : α → β) :
    Serves stack (f <$> p) scene (f a) map := by
  obtain ⟨scene', hdoes, hrest⟩ := h
  exact ⟨scene', hdoes.map f, hrest⟩

/-- Alone on its flight a caller leads, and everything is idle again when it has left. -/
theorem leads_alone {guard : Flights} (hidle : Idle guard) (key : String) :
    ∃ led, (guard.join key).2.ask (guard.join key).1 = (.lead, led) ∧
      ∀ outcome, Idle ((led.land (guard.join key).1 outcome).2.leave (guard.join key).1) := by
  have houtside : Coordinated guard [.outside] :=
    (coordinated_outside fun _ hs => List.mem_singleton.mp hs).mpr hidle
  have hjoined := houtside.join (i := 0) rfl key
  obtain ⟨-, hturn⟩ := System.join_fresh (hidle.empty key)
  cases hask : (guard.join key).2.ask (guard.join key).1 with
  | mk turn led =>
    rw [hask] at hturn
    cases hturn
    refine ⟨led, rfl, fun outcome => ?_⟩
    have hlanded := (hjoined.lead (i := 0) rfl hask).land (i := 0) rfl outcome
    exact (coordinated_outside fun _ hs => List.mem_singleton.mp hs).mp (hlanded.leave (i := 0) rfl)

theorem serves_share {stack : Stack} {scene : Scene} {map : TtlMap}
    {load : CacheProc ScriptedLoader Outcome} {outcome : Outcome} (hidle : Idle scene.guard)
    (key : String)
    (hload : ∀ guard : Flights, Realizes stack load { scene with guard } outcome map) :
    Serves stack (CacheProc.share key load) scene (outcome.mapError (·.share)) map := by
  obtain ⟨led, hask, hleft⟩ := leads_alone hidle key
  obtain ⟨scene', hdoes, hnow, hguard, hrefines⟩ := hload led
  have hguard : scene'.guard = led := hguard
  subst hguard
  have hjoin : Does (CacheProc.ask (.join key)) scene (scene.guard.join key).1
      { scene with guard := (scene.guard.join key).2 } := rfl
  have hturn : Does (CacheProc.ask (.turn (scene.guard.join key).1))
      { scene with guard := (scene.guard.join key).2 } none { scene with guard := scene'.guard } := by
    simp only [Does, CacheProc.ask, Proc.request, Proc.run, Scene.answer, hask]
  exact ⟨_, hjoin.bind (hturn.bind (hdoes.bind rfl)), hnow, hleft outcome, hrefines.shows, hrefines.draws⟩

namespace Stack

open CacheProc

variable {stack : Stack} {scene : Scene} {map map' : TtlMap}

theorem realizes_loadWith (hstack : stack.Usable) (h : Refines stack scene map) (key : String)
    {loader : ScriptedLoader}
    (hloaded : ∀ loaded, loader.single = .ok loaded → loaded.value.length < 2 ^ 32)
    {ttl : Duration} (httl : ttl.isZero = false) :
    Realizes stack (stack.loadWith key loader ttl) scene
      (map.load stack.settings scene.now key loader ttl).1
      (map.load stack.settings scene.now key loader ttl).2 := by
  have hload : Does (load loader) scene loader.single scene := rfl
  cases hsingle : loader.single with
  | ok loaded =>
    rw [hsingle] at hload
    have httl' : (loaded.ttlOr ttl).isZero = false := Duration.isZero_orElse httl
    have hset := realizes_set hstack h key (hloaded loaded hsingle) (loaded.ttlOr ttl)
    rw [Duration.orElse_of_lasting httl'] at hset
    obtain ⟨scene', hdoes, hrest⟩ := hset
    simp only [TtlMap.load, hsingle]
    exact ⟨scene', hload.bind (hdoes.bind rfl), hrest⟩
  | error e =>
    rw [hsingle] at hload
    cases hnotFound : e.isNotFound with
    | true =>
      obtain ⟨scene', hdoes, hrest⟩ := realizes_setNegative hstack h key
      simp only [TtlMap.load, hsingle, hnotFound, ↓reduceIte]
      refine ⟨scene', hload.bind ?_, hrest⟩
      simp only [hnotFound, ↓reduceIte]
      exact hdoes.bind rfl
    | false =>
      simp only [TtlMap.load, hsingle, hnotFound, Bool.false_eq_true, ↓reduceIte]
      refine ⟨scene, hload.bind ?_, rfl, rfl, h⟩
      simp only [hnotFound, Bool.false_eq_true, ↓reduceIte]
      rfl

theorem realizes_getOr (hstack : stack.Usable) (h : Refines stack scene map)
    (hnow : scene.now < Instant.horizon) (key : String) {loader : ScriptedLoader}
    (hloaded : ∀ loaded, loader.single = .ok loaded → loaded.value.length < 2 ^ 32)
    {ttl : Duration} (httl : ttl.isZero = false) :
    Realizes stack (stack.getOr key (stack.loadWith key loader ttl)) scene
      (map.remember stack.settings scene.now key loader ttl).1
      (map.remember stack.settings scene.now key loader ttl).2 := by
  unfold TtlMap.remember getOr
  refine (realizes_get hstack h hnow key).bind fun scene' hnow' h' => ?_
  cases map.find key scene.now with
  | hit value => exact .pure h' _
  | negative => exact .pure h' _
  | miss => exact hnow' ▸ realizes_loadWith hstack h' key hloaded httl

theorem serves_remember (hstack : stack.Usable) (h : Refines stack scene map)
    (hnow : scene.now < Instant.horizon) (hidle : Idle scene.guard) (key : String)
    {loader : ScriptedLoader}
    (hloaded : ∀ loaded, loader.single = .ok loaded → loaded.value.length < 2 ^ 32)
    (options : RememberOptions) {ttl : Duration}
    (httl : stack.resolveTtl (options.ttl.getD .zero) = ttl) :
    ∃ outcome, Serves stack (stack.remember key loader options) scene outcome
        (map.remember stack.settings scene.now key loader ttl).2 ∧
      (outcome = (map.remember stack.settings scene.now key loader ttl).1 ∨
        outcome = (map.remember stack.settings scene.now key loader ttl).1.mapError (·.share)) := by
  have hlasting : ttl.isZero = false := httl ▸ Duration.isZero_orElse hstack.lasting
  obtain ⟨scene', hget, hnow', hguard, h'⟩ := realizes_get hstack h hnow key
  unfold remember getOr
  cases hfind : map.find key scene.now with
  | hit value =>
    rw [hfind] at hget
    simp only [TtlMap.remember, hfind]
    exact ⟨_, ⟨scene', hget.bind rfl, hnow', hguard ▸ hidle, h'⟩, .inl rfl⟩
  | negative =>
    rw [hfind] at hget
    simp only [TtlMap.remember, hfind]
    exact ⟨_, ⟨scene', hget.bind rfl, hnow', hguard ▸ hidle, h'⟩, .inl rfl⟩
  | miss =>
    rw [hfind] at hget
    rw [httl]
    cases options.policy.getD stack.settings.policy with
    | cacheAside =>
      have hload := realizes_loadWith hstack h' key hloaded hlasting
      obtain ⟨scene'', hdoes, hnow'', hidle'', h''⟩ := hload.serves (hguard ▸ hidle)
      rw [hnow'] at hdoes h''
      simp only [TtlMap.remember, hfind]
      exact ⟨_, ⟨scene'', hget.bind hdoes, hnow''.trans hnow', hidle'', h''⟩, .inl rfl⟩
    | singleFlight =>
      have hload (guard : Flights) :
          Realizes stack (stack.getOr key (stack.loadWith key loader ttl)) { scene' with guard }
            (map.remember stack.settings scene'.now key loader ttl).1
            (map.remember stack.settings scene'.now key loader ttl).2 := by
        have h' : Refines stack { scene' with guard } map := ⟨h'.shows, h'.draws⟩
        exact realizes_getOr hstack h' (hnow' ▸ hnow) key hloaded hlasting
      obtain ⟨scene'', hdoes, hnow'', hidle'', h''⟩ :=
        serves_share (hguard ▸ hidle) (stack.fullKey key) hload
      rw [hnow'] at hdoes h''
      exact ⟨_, ⟨scene'', hget.bind hdoes, hnow''.trans hnow', hidle'', h''⟩, .inr rfl⟩

end Stack

end StackedCache
