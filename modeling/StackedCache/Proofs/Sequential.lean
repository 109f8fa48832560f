import StackedCache.Proofs.Concurrency.Crew
import StackedCache.Proofs.RecordTruncation
import StackedCache.Proofs.Storage
import StackedCache.Proofs.TtlMap

/-!
# One call after the other

A cache that works off its calls one by one, each at one instant, over layers
that do not fail. Each operation of the stack has a lemma that tells what it
answers and what is seen in the layers afterwards.
-/

namespace StackedCache

open Simulation Concurrency

structure Scene where
  now : Instant
  storage : Storage
  guard : Flights := {}
  draws : Nat → Rat

namespace Scene

/-- The reply to a request. A loader has its outcome at once, and nobody waits for a turn,
since nobody else is there. -/
def answer : (r : CacheRequest ScriptedLoader) → Scene → r.Reply × Scene
  | .layer slot op, scene =>
    let (reply, storage) := scene.storage.perform scene.now slot op
    (reply, { scene with storage })
  | .load loader, scene => (loader.single, scene)
  | .loadMany loader _, scene => (loader.many, scene)
  | .draw _, scene => (scene.draws 0, { scene with draws := fun n => scene.draws (n + 1) })
  | .join key, scene =>
    let (seat, guard) := scene.guard.join key
    (seat, { scene with guard })
  | .turn seat, scene =>
    match scene.guard.ask seat with
    | (.landed outcome, guard) => (some outcome, { scene with guard })
    | (_, guard) => (none, { scene with guard })
  | .land seat outcome, scene => ((), { scene with guard := (scene.guard.land seat outcome).2 })
  | .leave seat, scene => ((), { scene with guard := scene.guard.leave seat })
  | .close _, scene | .notice _, scene | .count _, scene => ((), scene)

theorem answer_now (r : CacheRequest ScriptedLoader) (scene : Scene) :
    (answer r scene).2.now = scene.now := by
  cases r with
  | turn seat =>
    simp only [answer]
    split <;> rfl
  | _ => rfl

theorem run_now {α : Type} (p : CacheProc ScriptedLoader α) (scene : Scene) :
    (p.run answer scene).2.now = scene.now := by
  induction p generalizing scene with
  | done a => rfl
  | ask r next ih => exact (ih _ _).trans (answer_now r scene)

end Scene

section
variable {α β : Type} {scene scene' : Scene}

def Does (p : CacheProc ScriptedLoader α) (scene : Scene) (a : α) (scene' : Scene) : Prop :=
  p.run Scene.answer scene = (a, scene')

theorem does_ok {p : CacheProc ScriptedLoader (Except CacheError α)} {a : α}
    (h : (p.run Scene.answer scene).1.toOption = some a) :
    Does p scene (.ok a) (p.run Scene.answer scene).2 := by
  unfold Does
  cases hresult : (p.run Scene.answer scene).1 with
  | error e => rw [hresult] at h; cases h
  | ok b =>
    rw [hresult] at h
    cases h
    exact Prod.ext hresult rfl

theorem Does.bind {p : CacheProc ScriptedLoader α} {f : α → CacheProc ScriptedLoader β} {a : α} {b : β}
    {scene'' : Scene} (h : Does p scene a scene') (hf : Does (f a) scene' b scene'') :
    Does (p >>= f) scene b scene'' := by
  unfold Does at h hf ⊢
  rw [Proc.run_bind, h]
  exact hf

theorem Does.map {p : CacheProc ScriptedLoader α} {a : α} (h : Does p scene a scene') (f : α → β) :
    Does (f <$> p) scene (f a) scene' := by
  rw [Proc.map_eq]
  exact h.bind rfl

end

namespace Stack

open CacheProc Storage

variable {scene : Scene} {key : String}

-- ---------------------------------------------------------------------------
-- Single keys
-- ---------------------------------------------------------------------------

theorem does_getFrom (scene : Scene) (tier : Tier) (key : String) :
    ∃ found storage, Does (getFrom tier key) scene (.ok found) { scene with storage } ∧
      found.map Entry.payload = (scene.storage.items tier.slot).visible? key scene.now ∧
      Kept scene.now scene.storage storage := by
  obtain ⟨⟨found, hreply, hfound⟩, hkept⟩ := get_spec scene.storage scene.now tier.slot key
  exact ⟨found, _, Prod.ext hreply rfl, hfound, hkept⟩

theorem does_readFrom_miss (stack : Stack) (scene : Scene) {below : List Tier}
    (hnow : scene.now < Instant.horizon)
    (h : ∀ tier ∈ below,
      ((scene.storage.items tier.slot).visible? key scene.now).bind Record.decode = none)
    (above : List Tier) :
    ∃ storage, Does (stack.readFrom key above below) scene (.ok .miss) { scene with storage } ∧
      Kept scene.now scene.storage storage := by
  induction below generalizing scene above with
  | nil => exact ⟨scene.storage, rfl, Kept.refl⟩
  | cons tier below ih =>
    obtain ⟨found, storage, hget, hfound, hkept⟩ := does_getFrom scene tier key
    have hrest : ∀ tier ∈ below,
        ((storage.items tier.slot).visible? key scene.now).bind Record.decode = none := by
      intro tier' ht
      rw [hkept tier'.slot key scene.now (Nat.le_refl _) hnow]
      exact h tier' (List.mem_cons_of_mem _ ht)
    obtain ⟨storage', hread, hkept'⟩ := ih { scene with storage } hnow hrest (above ++ [tier])
    refine ⟨storage', hget.bind ?_, hkept.trans hkept'⟩
    cases found with
    | none => exact hread
    | some entry =>
      have hdecode : Record.decode entry.payload = none := by
        have hmiss := h tier List.mem_cons_self
        rw [← hfound] at hmiss
        exact hmiss
      simp only [hdecode]
      exact hread

theorem does_readFrom_hit (stack : Stack) {tier : Tier} {record : Record}
    (h : ((scene.storage.items tier.slot).visible? key scene.now).bind Record.decode = some record)
    (below : List Tier) :
    ∃ storage, Does (stack.readFrom key [] (tier :: below)) scene (.ok (.ofRecord (some record)))
        { scene with storage } ∧
      Kept scene.now scene.storage storage := by
  obtain ⟨found, storage, hget, hfound, hkept⟩ := does_getFrom scene tier key
  refine ⟨storage, hget.bind ?_, hkept⟩
  rw [← hfound] at h
  cases found with
  | none => cases h
  | some entry =>
    have hdecode : Record.decode entry.payload = some record := h
    simp only [hdecode]
    cases record <;> rfl

theorem does_setIn (scene : Scene) (tier : Tier) (key : String) (payload : Bytes) (ttl : Duration) :
    ∃ storage, Does (setIn tier key payload ttl) scene (.ok ()) { scene with storage } ∧
      storage.Sees scene.now tier.slot key (shownFor payload ttl scene.now) ∧
      KeptBut scene.now key (shownFor payload ttl scene.now) scene.storage storage := by
  obtain ⟨hreply, hsees, hkept⟩ := set_spec scene.storage scene.now tier.slot key payload ttl
  exact ⟨_, Prod.ext hreply rfl, hsees, hkept⟩

theorem does_writeEach (scene : Scene) (key : String) (payload : Bytes) (ttl : Duration)
    (tiers : List Tier) :
    ∃ storage, Does (writeEach key payload ttl (.ok ()) tiers) scene (.ok ()) { scene with storage } ∧
      (∀ tier ∈ tiers, storage.Sees scene.now tier.slot key (shownFor payload ttl scene.now)) ∧
      KeptBut scene.now key (shownFor payload ttl scene.now) scene.storage storage := by
  induction tiers generalizing scene with
  | nil => exact ⟨scene.storage, rfl, List.forall_mem_nil _, Kept.refl.but⟩
  | cons tier rest ih =>
    obtain ⟨storage, hset, hsees, hkept⟩ := does_setIn scene tier key payload ttl
    obtain ⟨storage', hwrite, hrest, hkept'⟩ := ih { scene with storage }
    refine ⟨storage', hset.bind hwrite, ?_, hkept.trans hkept'⟩
    intro tier' ht
    rcases List.mem_cons.mp ht with rfl | ht
    · exact hsees.keptBut hkept' fun _ => rfl
    · exact hrest tier' ht

theorem does_deleteEach (scene : Scene) (key : String) (tiers : List Tier) :
    ∃ storage, Does (deleteEach key (.ok ()) tiers) scene (.ok ()) { scene with storage } ∧
      (∀ tier ∈ tiers, storage.Sees scene.now tier.slot key (fun _ => none)) ∧
      KeptBut scene.now key (fun _ => none) scene.storage storage := by
  induction tiers generalizing scene with
  | nil => exact ⟨scene.storage, rfl, List.forall_mem_nil _, Kept.refl.but⟩
  | cons tier rest ih =>
    obtain ⟨hreply, hsees, hkept⟩ := delete_spec scene.storage scene.now tier.slot key
    have hdelete : Does (deleteIn tier key) scene (.ok ()) _ := Prod.ext hreply rfl
    obtain ⟨storage', hrest, hall, hkept'⟩ := ih { scene with storage := _ }
    refine ⟨storage', hdelete.bind hrest, ?_, hkept.trans hkept'⟩
    intro tier' ht
    rcases List.mem_cons.mp ht with rfl | ht
    · exact hsees.keptBut hkept' fun _ => rfl
    · exact hall tier' ht

theorem does_jittered (stack : Stack) (scene : Scene) (ttl : Duration) :
    Does (stack.jittered ttl) scene (stack.settings.spread ttl scene.draws).1
      { scene with draws := (stack.settings.spread ttl scene.draws).2 } := by
  unfold jittered Settings.spread
  cases Jitter.spread? stack.settings.jitter with
  | none => rfl
  | some spread => rfl

theorem does_write (stack : Stack) (scene : Scene) (key : String) (payload : Bytes) (ttl : Duration) :
    ∃ storage,
      Does
        (do
          let ttl ← stack.jittered ttl
          writeEach key payload ttl (.ok ()) stack.tiers)
        scene (.ok ())
        { scene with storage := storage, draws := (stack.settings.spread ttl scene.draws).2 } ∧
      (∀ tier ∈ stack.tiers, storage.Sees scene.now tier.slot key
        (shownFor payload (stack.settings.spread ttl scene.draws).1 scene.now)) ∧
      KeptBut scene.now key (shownFor payload (stack.settings.spread ttl scene.draws).1 scene.now)
        scene.storage storage := by
  obtain ⟨storage, hwrite, hsees, hkept⟩ := does_writeEach
    { scene with draws := (stack.settings.spread ttl scene.draws).2 } key payload
    (stack.settings.spread ttl scene.draws).1 stack.tiers
  exact ⟨storage, (does_jittered stack scene ttl).bind hwrite, hsees, hkept⟩

/-- The payload of a long value is no record. All layers take it, and the key is a miss. -/
theorem does_set_long (stack : Stack) (hnow : scene.now < Instant.horizon) {value : Bytes}
    (hlong : 2 ^ 32 ≤ value.length) (key : String) (ttl : Duration) :
    ∃ mid after, Does (stack.set key value ttl) scene (.ok ()) mid ∧
      Does (stack.get key) mid (.ok .miss) after := by
  obtain ⟨storage, hset, hsees, -⟩ :=
    does_write stack scene (stack.fullKey key) (Record.encode value) (stack.resolveTtl ttl)
  have hmiss : ∀ tier ∈ stack.tiers,
      ((storage.items tier.slot).visible? (stack.fullKey key) scene.now).bind Record.decode = none := by
    intro tier htier
    rw [hsees tier htier scene.now (Nat.le_refl _) hnow, shownFor]
    split
    · exact Record.decode_encode_long hlong
    · rfl
  obtain ⟨storage', hget, -⟩ := does_readFrom_miss stack
    { scene with
      storage := storage
      draws := (stack.settings.spread (stack.resolveTtl ttl) scene.draws).2 }
    hnow hmiss []
  exact ⟨_, _, hset, hget⟩

end Stack

end StackedCache
