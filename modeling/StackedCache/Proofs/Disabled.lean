import StackedCache.Proofs.BatchLoads
import StackedCache.Proofs.Batches

/-!
# Caches that are disabled

A disabled cache next to an enabled one whose layers have nothing: both call
the loader as often and with the same keys, and a single key comes to the same.
A batch need not. The disabled cache hands back all that the loader has
returned, and the enabled one only what it was asked for.
-/

namespace StackedCache

open Simulation CacheProc Concurrency

abbrev Calls {α : Type} (p : CacheProc ScriptedLoader α) (scene : Scene)
    (calls : List (ScriptedLoader × Option (List String))) (a : α) (after : Scene) : Prop :=
  p.Goes Scene.answer (fun e : CacheExchange => e.1.calls) scene calls a after

def Simulation.ScriptedLoader.outcome (loader : ScriptedLoader) : Outcome :=
  match loader.single with
  | .ok loaded => .ok loaded.value
  | .error e => .error (if e.isNotFound then .notFound else e)

namespace Stack

/-- The layers have nothing under the keys of the stack. -/
structure Void (stack : Stack) (scene : Scene) : Prop where
  clock : scene.now < Instant.horizon
  nothing {tier : Tier} (htier : tier ∈ stack.tiers) (key : String) :
    scene.shown tier.slot (stack.fullKey key) = none

variable {stack : Stack} {scene after : Scene} {key : String} {loader : ScriptedLoader}
  {calls : List (ScriptedLoader × Option (List String))} {outcome : Outcome}

theorem Void.on (h : stack.Void scene) (guard : Flights) : stack.Void { scene with guard } :=
  ⟨h.clock, h.nothing⟩

/-- Nothing is shown later on either. -/
theorem Void.refines (h : stack.Void scene) : Refines stack scene { draws := scene.draws } := by
  refine ⟨fun tier htier key t hle hlt => ?_, rfl⟩
  cases hshown : (scene.storage.items tier.slot).visible? (stack.fullKey key) t with
  | none => rfl
  | some payload =>
    have hnow := visible_earlier hshown hle
    exact absurd (hnow.symm.trans (h.nothing htier key)) (Option.some_ne_none payload)

theorem calls_of_traced {α : Type} {p : CacheProc ScriptedLoader α} {a : α}
    (htraced : p.Traced fun told _ => callsOf told = []) (h : Does p scene a after) :
    Calls p scene [] a after :=
  ⟨htraced _ _ (Proc.ends_told _ p scene), h⟩

-- ---------------------------------------------------------------------------
-- Single keys
-- ---------------------------------------------------------------------------

theorem calls_getOr (h : stack.Void scene) (key : String) {onMiss : CacheProc ScriptedLoader Outcome}
    (hmiss : ∀ mid : Scene, stack.Void mid → mid.guard = scene.guard →
      ∃ after, Calls onMiss mid calls outcome after) :
    ∃ after, Calls (stack.getOr key onMiss) scene calls outcome after := by
  have hnothing : ∀ tier ∈ stack.tiers, ((scene.storage.items tier.slot).visible? (stack.fullKey key)
      scene.now).bind Record.decode = none :=
    fun tier htier => congrArg (Option.bind · Record.decode) (h.nothing htier key)
  obtain ⟨storage, hdoes, hkept⟩ := does_readFrom_miss stack scene h.clock hnothing []
  have htraced := @traced_get stack (fun _ => True) key trivial
  have hget : Calls (stack.get key) scene [] (.ok .miss) { scene with storage } :=
    calls_of_traced (htraced.mono fun _ _ hlooked => hlooked.reads.callsOf_eq) hdoes
  have hvoid : stack.Void { scene with storage } := by
    refine ⟨h.clock, fun {tier} htier k => ?_⟩
    exact (hkept tier.slot (stack.fullKey k) scene.now (Nat.le_refl _) h.clock).trans (h.nothing htier k)
  obtain ⟨after, hgo⟩ := hmiss _ hvoid rfl
  exact ⟨after, hget.unseen hgo⟩

theorem calls_set (stack : Stack) (scene : Scene) (key : String) (value : Bytes) (ttl : Duration) :
    ∃ after, Calls (stack.set key value ttl) scene [] (.ok ()) after := by
  obtain ⟨storage, hdoes, -⟩ :=
    does_write stack scene (stack.fullKey key) (Record.encode value) (stack.resolveTtl ttl)
  have htraced := @traced_set stack (fun _ => True) key trivial value ttl
  exact ⟨_, calls_of_traced (htraced.mono fun _ _ hsettles => hsettles.callsOf_eq) hdoes⟩

theorem calls_setNegative (stack : Stack) (scene : Scene) (key : String) :
    ∃ after, Calls (stack.setNegative key) scene [] (.ok ()) after := by
  obtain ⟨storage, hdoes, -⟩ :=
    does_write stack scene (stack.fullKey key) Record.encodeNegative stack.settings.negativeTtl
  have htraced := @traced_setNegative stack (fun _ => True) key trivial
  exact ⟨_, calls_of_traced (htraced.mono fun _ _ hsettles => hsettles.callsOf_eq) hdoes⟩

theorem calls_loadWith (stack : Stack) (scene : Scene) (key : String) (loader : ScriptedLoader)
    (ttl : Duration) :
    ∃ after, Calls (stack.loadWith key loader ttl) scene [(loader, none)] loader.outcome after := by
  have hcount : Calls (count .loaderCall) scene [] () scene := ⟨rfl, rfl⟩
  have hload : Calls (load loader) scene [(loader, none)] loader.single scene := ⟨rfl, rfl⟩
  unfold ScriptedLoader.outcome
  cases hsingle : loader.single with
  | ok loaded =>
    rw [hsingle] at hload
    obtain ⟨after, hset⟩ := calls_set stack scene key loaded.value (loaded.ttlOr ttl)
    exact ⟨after, hcount.unseen (hload.then_unseen (hset.then_unseen (Proc.goes_pure _)))⟩
  | error e =>
    rw [hsingle] at hload
    cases hnotFound : e.isNotFound with
    | true =>
      obtain ⟨after, hset⟩ := calls_setNegative stack scene key
      refine ⟨after, hcount.unseen (hload.then_unseen ?_)⟩
      simp only [hnotFound, ↓reduceIte]
      have hnotice : Calls (notice (.loaderFoundNothing key)) scene [] () scene := ⟨rfl, rfl⟩
      exact hnotice.unseen (hset.then_unseen (Proc.goes_pure _))
    | false =>
      refine ⟨scene, hcount.unseen (hload.then_unseen ?_)⟩
      simp only [hnotFound, Bool.false_eq_true, ↓reduceIte]
      exact Proc.goes_pure _

theorem calls_share (hidle : Idle scene.guard) (key : String) {load : CacheProc ScriptedLoader Outcome}
    (hload : ∀ led, ∃ after, Calls load { scene with guard := led } calls outcome after) :
    ∃ after, Calls (share key load) scene calls (outcome.mapError (·.share)) after := by
  obtain ⟨led, hask, -⟩ := leads_alone hidle key
  obtain ⟨after, hgo⟩ := hload led
  have hjoin : Calls (ask (.join key)) scene [] (scene.guard.join key).1
      { scene with guard := (scene.guard.join key).2 } := ⟨rfl, rfl⟩
  have hturn : Calls (ask (.turn (scene.guard.join key).1))
      { scene with guard := (scene.guard.join key).2 } [] none { scene with guard := led } := by
    refine ⟨?_, ?_⟩
    · simp only [ask, Proc.request, Proc.told, List.flatMap_cons, List.flatMap_nil]
      rfl
    · simp only [ask, Proc.request, Proc.run, Scene.answer, hask]
  exact ⟨_, hjoin.unseen (hturn.unseen (hgo.then_unseen ⟨rfl, rfl⟩))⟩

theorem calls_remember (h : stack.Void scene) (hidle : Idle scene.guard) (key : String)
    (loader : ScriptedLoader) (options : RememberOptions) :
    ∃ outcome after, Calls (stack.remember key loader options) scene [(loader, none)] outcome after ∧
      (outcome = loader.outcome ∨ outcome = loader.outcome.mapError (·.share)) := by
  have hload (mid : Scene) := calls_loadWith stack mid key loader
    (stack.resolveTtl (options.ttl.getD .zero))
  unfold remember
  cases options.policy.getD stack.settings.policy with
  | cacheAside =>
    obtain ⟨after, hgo⟩ := calls_getOr h key fun mid _ _ => hload mid
    exact ⟨_, after, hgo, .inl rfl⟩
  | singleFlight =>
    obtain ⟨after, hgo⟩ := calls_getOr h key fun mid hmid hguard =>
      calls_share (hguard ▸ hidle) (stack.fullKey key) fun led =>
        calls_getOr (hmid.on led) key fun mid _ _ => hload mid
    exact ⟨_, after, hgo, .inr rfl⟩

-- ---------------------------------------------------------------------------
-- Several keys at once
-- ---------------------------------------------------------------------------

theorem calls_mget (h : stack.Void scene) (keys : List String) :
    ∃ after, Calls (stack.mget keys) scene [] (.ok ⟨{}, TtlMap.asked keys⟩) after := by
  have hdoes : ∃ after, Does (stack.mget keys) scene (.ok ⟨{}, TtlMap.asked keys⟩) after := by
    unfold mget
    rw [TtlMap.distinctKeys_eq]
    cases hempty : (TtlMap.asked keys).isEmpty with
    | true =>
      rw [List.isEmpty_iff.mp hempty]
      exact ⟨scene, rfl⟩
    | false =>
      have hmisses : ∀ key ∈ TtlMap.asked keys, TtlMap.Misses { draws := scene.draws } scene.now key :=
        fun key _ value hvalue => by cases hvalue
      obtain ⟨after, hread, -⟩ := realizes_fetchFrom h.refines h.clock {} hmisses [] fun _ htier => htier
      simp only [hempty, Bool.false_eq_true, ↓reduceIte]
      exact ⟨after, hread⟩
  obtain ⟨after, hdoes⟩ := hdoes
  exact ⟨after, calls_of_traced ((traced_mget keys).mono fun _ _ hfetched => hfetched.reads.callsOf_eq) hdoes⟩

theorem calls_storeLoaded (stack : Stack) (scene : Scene) (loaded : Table Loaded) (asked : Duration)
    {missing : List String} (hmissing : missing.Nodup) :
    ∃ values after, Calls (stack.storeLoaded loaded (stack.resolveTtl asked) {} missing) scene [] values
        after ∧
      ∀ key, values.get? key = if key ∈ missing then (loaded.get? key).map Loaded.value else none := by
  have htraced := @traced_storeLoaded stack (fun _ => True) missing loaded asked {} hmissing
    fun _ _ => trivial
  have hstores := htraced _ _ (Proc.ends_told Scene.answer _ scene)
  refine ⟨_, _, ⟨hstores.settles.callsOf_eq, rfl⟩, fun key => ?_⟩
  rw [hstores.values]
  split <;> exact Option.or_none

/-- Of what a loader returns for a batch only the keys that were asked for count. -/
theorem calls_mremember (h : stack.Void scene) (keys : List String) (loader : ScriptedLoader)
    (options : RememberOptions) (hasked : TtlMap.asked keys ≠ []) :
    ∃ result after, Calls (stack.mremember keys loader options) scene
        [(loader, some (TtlMap.asked keys))] result after ∧
      match loader.many with
      | .error e => result = .error e
      | .ok loaded => ∃ values, result = .ok values ∧ ∀ key, values.get? key =
          if key ∈ TtlMap.asked keys then (loaded.get? key).map Loaded.value else none := by
  obtain ⟨mid, hmget⟩ := calls_mget h keys
  have hcount : Calls (count .loaderCall) mid [] () mid := ⟨rfl, rfl⟩
  have hload : Calls (loadMany loader (TtlMap.asked keys)) mid [(loader, some (TtlMap.asked keys))]
      loader.many mid := ⟨rfl, rfl⟩
  have hsome : (TtlMap.asked keys).isEmpty = false := by simpa using hasked
  cases hmany : loader.many with
  | error e =>
    rw [hmany] at hload
    refine ⟨.error e, mid, hmget.unseen ?_, rfl⟩
    simp only [hsome, Bool.false_eq_true, ↓reduceIte]
    exact hcount.unseen (hload.then_unseen (Proc.goes_pure _))
  | ok loaded =>
    rw [hmany] at hload
    obtain ⟨values, after, hstore, hvalues⟩ :=
      calls_storeLoaded stack mid loaded (options.ttl.getD .zero) (TtlMap.nodup_asked keys)
    refine ⟨.ok values, after, hmget.unseen ?_, values, rfl, hvalues⟩
    simp only [hsome, Bool.false_eq_true, ↓reduceIte]
    refine hcount.unseen (hload.then_unseen (hstore.unseen ?_))
    split
    · exact Proc.goes_pure _
    · have hnotice (n : Notice) : Calls (notice n) after [] () after := ⟨rfl, rfl⟩
      exact (hnotice _).unseen (Proc.goes_pure _)

end Stack

/-- A cache that is disabled, and one whose layers have nothing and do not fail. For one key both call the
loader once; they return the same value, or both fail. For a batch both call it once for the keys that are
asked for, and not at all if there are none; both fail with its error, or else the enabled cache returns
what the disabled one does for these keys, and leaves out all others. -/
theorem disabled_agrees {stack : Stack} {scene : Scene} (hvoid : stack.Void scene)
    (hidle : Idle scene.guard) (loader : ScriptedLoader) (options : RememberOptions) :
    (∀ key, ∃ plain outcome after,
      Calls (Cache.disabled.remember key loader options) scene [(loader, none)] plain scene ∧
      Calls ((Cache.stacked stack).remember key loader options) scene [(loader, none)] outcome after ∧
      outcome.toOption = plain.toOption) ∧
    ∀ keys, ∃ calls whole result after,
      calls = (if TtlMap.asked keys = [] then [] else [(loader, some (TtlMap.asked keys))]) ∧
      Calls (Cache.disabled.mremember keys loader options) scene calls whole scene ∧
      Calls ((Cache.stacked stack).mremember keys loader options) scene calls result after ∧
      match whole with
      | .error e => result = .error e
      | .ok all => ∃ values, result = .ok values ∧
          ∀ key, values.get? key = if key ∈ TtlMap.asked keys then all.get? key else none := by
  refine ⟨fun key => ?_, fun keys => ?_⟩
  · obtain ⟨outcome, after, hgo, hcopy⟩ := Stack.calls_remember hvoid hidle key loader options
    have hload : Calls (load loader) scene [(loader, none)] loader.single scene := ⟨rfl, rfl⟩
    have hsame : outcome.toOption = loader.outcome.toOption := by
      rcases hcopy with rfl | rfl
      · rfl
      · cases loader.outcome <;> rfl
    unfold ScriptedLoader.outcome at hsame
    cases hsingle : loader.single with
    | ok loaded =>
      rw [hsingle] at hload hsame
      exact ⟨.ok loaded.value, outcome, after, hload.then_unseen (Proc.goes_pure _), hgo, hsame⟩
    | error e =>
      rw [hsingle] at hload hsame
      exact ⟨.error e, outcome, after, hload.then_unseen (Proc.goes_pure _), hgo, hsame⟩
  · by_cases hasked : TtlMap.asked keys = []
    · obtain ⟨after, hmget⟩ := Stack.calls_mget hvoid keys
      refine ⟨[], .ok {}, .ok {}, after, (if_pos hasked).symm, ?_, ?_, {}, rfl, fun key => (ite_self _).symm⟩
      · simp only [Cache.mremember, TtlMap.distinctKeys_eq, hasked, List.isEmpty_nil, ↓reduceIte]
        exact Proc.goes_pure _
      · refine hmget.unseen ?_
        simp only [hasked, List.isEmpty_nil, ↓reduceIte]
        exact Proc.goes_pure _
    · obtain ⟨result, after, hgo, hresult⟩ := Stack.calls_mremember hvoid keys loader options hasked
      have hload : Calls (loadMany loader (TtlMap.asked keys)) scene [(loader, some (TtlMap.asked keys))]
          loader.many scene := ⟨rfl, rfl⟩
      have hsome : (TtlMap.asked keys).isEmpty = false := by simpa using hasked
      have hdisabled : ∃ whole,
          Calls (Cache.disabled.mremember keys loader options) scene [(loader, some (TtlMap.asked keys))]
            whole scene ∧ whole = loader.many.map (Table.map · Loaded.value) := by
        refine ⟨_, ?_, rfl⟩
        simp only [Cache.mremember, TtlMap.distinctKeys_eq, hsome, Bool.false_eq_true, ↓reduceIte]
        refine hload.then_unseen ?_
        cases loader.many <;> exact Proc.goes_pure _
      obtain ⟨whole, hwhole, rfl⟩ := hdisabled
      refine ⟨_, _, result, after, (if_neg hasked).symm, hwhole, hgo, ?_⟩
      cases hmany : loader.many with
      | error e =>
        simp only [hmany] at hresult
        exact hresult
      | ok loaded =>
        simp only [hmany] at hresult
        obtain ⟨values, hresult, hvalues⟩ := hresult
        refine ⟨values, hresult, fun key => ?_⟩
        rw [hvalues]
        exact congrArg (fun found => if key ∈ TtlMap.asked keys then found else none)
          (Table.lookup_map Loaded.value key loaded.rows).symm

def emptyScene : Scene where
  now := 10 ^ 12
  storage :=
    { backing := fun _ => .memory 0
      memories := fun _ => { limit := 0 }
      stores := fun _ => ⟨true, [], {}, []⟩ }
  draws := fun _ => 0

def emptyStack : Stack := ⟨CacheConfig.settings { jitter := ⟨0⟩ }, [⟨0, "memory", true⟩]⟩

def generousLoader : ScriptedLoader where
  key := ""
  single := .ok ⟨[5], none⟩
  many := .ok (Table.ofList [("a", ⟨[1], none⟩), ("z", ⟨[2], none⟩)])

theorem emptyStack_void : emptyStack.Void emptyScene := ⟨by decide, fun _ _ => rfl⟩

theorem disabled_agrees_generous :
    (∃ plain outcome after,
      Calls (Cache.disabled.remember "a" generousLoader {}) emptyScene [(generousLoader, none)] plain
        emptyScene ∧
      Calls ((Cache.stacked emptyStack).remember "a" generousLoader {}) emptyScene
        [(generousLoader, none)] outcome after ∧
      outcome.toOption = plain.toOption) ∧
    ∃ whole result after,
      Calls (Cache.disabled.mremember ["a"] generousLoader {}) emptyScene [(generousLoader, some ["a"])]
        whole emptyScene ∧
      Calls ((Cache.stacked emptyStack).mremember ["a"] generousLoader {}) emptyScene
        [(generousLoader, some ["a"])] result after ∧
      match whole with
      | .error e => result = .error e
      | .ok all => ∃ values, result = .ok values ∧
          ∀ key, values.get? key = if key ∈ ["a"] then all.get? key else none := by
  obtain ⟨hsingle, hbatch⟩ := disabled_agrees emptyStack_void idle_new generousLoader {}
  obtain ⟨calls, whole, result, after, rfl, hrest⟩ := hbatch ["a"]
  exact ⟨hsingle "a", whole, result, after, hrest⟩

/-- What the disabled cache returns is not what the enabled one does. -/
theorem disabled_returns_unrequested :
    emptyStack.Void emptyScene ∧ Idle emptyScene.guard ∧
    ∃ whole part after,
      Calls (Cache.disabled.mremember ["a"] generousLoader {}) emptyScene [(generousLoader, some ["a"])]
        (.ok whole) emptyScene ∧
      Calls ((Cache.stacked emptyStack).mremember ["a"] generousLoader {}) emptyScene
        [(generousLoader, some ["a"])] (.ok part) after ∧
      whole.get? "z" = some [2] ∧ part.get? "z" = none := by
  obtain ⟨result, after, hgo, part, rfl, hpart⟩ :=
    Stack.calls_mremember emptyStack_void ["a"] generousLoader {} (List.cons_ne_nil _ _)
  refine ⟨emptyStack_void, idle_new, Table.ofList [("a", [1]), ("z", [2])], part, after, ⟨rfl, rfl⟩,
    hgo, ?_, ?_⟩
  · decide
  · exact hpart "z"

end StackedCache
