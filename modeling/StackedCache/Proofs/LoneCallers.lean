import StackedCache.Proofs.Disabled
import StackedCache.Proofs.Lookups

/-!
# Lone callers

One caller reads a key through a loader, while some layers cannot be read and
some cannot be written. Only a miss calls the loader, once, and only what it
tells of the key is written. A flight that nobody else is on makes no
difference, apart from the copy of an error.
-/

namespace StackedCache

open Simulation CacheProc Concurrency Storage

-- ---------------------------------------------------------------------------
-- Deeds
-- ---------------------------------------------------------------------------

def CacheRequest.isDeed : CacheRequest ScriptedLoader → Bool
  | .load _ | .loadMany .. | .layer _ (.set ..) | .layer _ (.delete _) | .layer _ (.mset ..) => true
  | _ => false

def CacheRequest.deeds (r : CacheRequest ScriptedLoader) : List (CacheRequest ScriptedLoader) :=
  if r.isDeed then [r] else []

abbrev Acts {α : Type} (outages : Outages) (p : CacheProc ScriptedLoader α) (scene : Scene)
    (deeds : List (CacheRequest ScriptedLoader)) (a : α) (after : Scene) : Prop :=
  p.Goes outages.answer (fun e : CacheExchange => e.1.deeds) scene deeds a after

def putsInto (tiers : List Tier) (key : String) (payload : Bytes) (ttl : Duration) :
    List (CacheRequest ScriptedLoader) :=
  tiers.map fun tier => .layer tier.slot (.set key payload ttl)

section
variable {α β : Type} {outages : Outages} {scene after : Scene}
  {deeds : List (CacheRequest ScriptedLoader)} {f : Unit → CacheProc ScriptedLoader β} {b : β}

theorem Acts.notice (n : Notice) (hf : Acts outages (f ()) scene deeds b after) :
    Acts outages (CacheProc.notice n >>= f) scene deeds b after :=
  Proc.Goes.unseen ⟨rfl, rfl⟩ hf

theorem Acts.count (c : Count) (hf : Acts outages (f ()) scene deeds b after) :
    Acts outages (CacheProc.count c >>= f) scene deeds b after :=
  Proc.Goes.unseen ⟨rfl, rfl⟩ hf

theorem deeds_of_calls {told : List CacheExchange} (h : inputsOf told = []) :
    (told.flatMap fun e => e.1.deeds) =
      ((told.flatMap fun e => e.1.layerCalls).map fun call => .layer call.1 call.2).filter
        CacheRequest.isDeed := by
  induction told with
  | nil => rfl
  | cons e told ih =>
    obtain ⟨hinput, hrest⟩ : e.1.isInput = false ∧ inputsOf told = [] := by
      simpa [inputsOf] using h
    rw [List.flatMap_cons, List.flatMap_cons, List.map_append, List.filter_append, ih hrest]
    congr 1
    obtain ⟨r, reply⟩ := e
    cases r with
    | layer slot op => cases op <;> rfl
    | load loader => cases hinput
    | loadMany loader keys => cases hinput
    | _ => rfl

theorem GoesAmid.acts {p : CacheProc ScriptedLoader α} {calls : List (Nat × LayerOp)} {a : α}
    (h : GoesAmid outages p scene calls a after) (hinputs : p.Traced fun told _ => inputsOf told = []) :
    Acts outages p scene
      ((calls.map fun call => .layer call.1 call.2).filter CacheRequest.isDeed) a after := by
  refine ⟨?_, h.run⟩
  rw [deeds_of_calls (hinputs _ _ (Proc.ends_told _ p scene)), h.seen]

end

-- ---------------------------------------------------------------------------
-- Live items of other scenes
-- ---------------------------------------------------------------------------

def Scene.stored (scene after : Scene) : Scene := { scene with storage := after.storage }

/-- At the same instant the live items have changed so. Draws and flights may have gone on. -/
structure Scene.Becomes (before : Scene) (changes : Nat ⊕ Nat → String → Change) (after : Scene) :
    Prop where
  now : after.now = before.now
  alters : before.Alters changes (before.stored after)

def Scene.itemAfter (scene : Scene) (changes : Nat ⊕ Nat → String → Change) (slot : Nat) (key : String)
    (t : Instant) : Option Item :=
  ((changes (scene.storage.home slot) key).apply (itemAt (scene.storage.home slot) scene.now)
    (scene.item? slot key t)).filter (·.isLive t)

namespace Scene

variable {scene mid after : Scene} {changes changes' : Nat ⊕ Nat → String → Change}

theorem Alters.becomes (h : scene.Alters changes after) : scene.Becomes changes after := by
  refine ⟨h.now_eq, ?_⟩
  unfold stored
  rw [← h.rest]
  exact h

theorem Becomes.transport {other : Scene} (h : scene.Becomes changes after) (hnow : other.now = scene.now)
    (hstorage : other.storage = scene.storage) : other.Becomes changes after := by
  obtain ⟨now, storage, guard, draws⟩ := other
  cases hnow
  cases hstorage
  exact ⟨h.now, rfl, h.alters.backing, h.alters.changed⟩

theorem Becomes.following (h : mid.Becomes changes after) (hkept : scene.Alters (fun _ _ => .kept) mid) :
    scene.Becomes changes after := by
  refine ⟨h.now.trans hkept.now_eq, ?_⟩
  have hmid : mid.stored after = scene.stored after := by
    rw [stored, hkept.rest]
    rfl
  exact hmid ▸ h.alters.following hkept

theorem Becomes.item?_eq (h : scene.Becomes changes after) {slot : Nat} {key : String} {t : Instant}
    (ht : scene.now ≤ t) : after.item? slot key t = scene.itemAfter changes slot key t :=
  h.alters.item?_eq ht

end Scene

-- ---------------------------------------------------------------------------
-- Parts of a call
-- ---------------------------------------------------------------------------

namespace Stack

section
variable {outages : Outages} {scene : Scene} {deeds : List (CacheRequest ScriptedLoader)}
  {outcome : Outcome} {changes : Nat ⊕ Nat → String → Change} {record : Option (Bytes × Duration)}

theorem acts_get (stack : Stack) (outages : Outages) (scene : Scene) (key : String) :
    ∃ found payload upper after, stack.Decides outages scene key found payload upper ∧
      Acts outages (stack.get key) scene
        (putsInto upper (stack.fullKey key) payload stack.settings.defaultTtl) found after ∧
      scene.Alters (outages.puts scene.storage.home (stack.fullKey key) payload
        stack.settings.defaultTtl upper) after := by
  obtain ⟨reads, found, payload, upper, after, hdecides, hgoes, halters⟩ :=
    goes_get stack outages scene key
  have hinputs := (@traced_get stack (fun _ => True) key trivial).mono fun _ _ hlooked =>
    hlooked.reads.inputs
  refine ⟨found, payload, upper, after, hdecides, ?_, halters⟩
  convert hgoes.acts hinputs using 1
  simp [putsInto, List.filter_map, Function.comp_def, CacheRequest.isDeed]

theorem acts_jittered (stack : Stack) (outages : Outages) (scene : Scene) (ttl : Duration) :
    Acts outages (stack.jittered ttl) scene [] (stack.settings.spread ttl scene.draws).1
      { scene with draws := (stack.settings.spread ttl scene.draws).2 } := by
  unfold jittered Settings.spread
  cases Jitter.spread? stack.settings.jitter with
  | none => exact Proc.goes_pure _
  | some spread => exact ⟨rfl, rfl⟩

theorem acts_writeEach (outages : Outages) (scene : Scene) (key : String) (payload : Bytes) (ttl : Duration)
    (first : Except CacheError Unit) (tiers : List Tier) :
    ∃ reply after, Acts outages (writeEach key payload ttl first tiers) scene
        (putsInto tiers key payload ttl) reply after ∧
      scene.Alters (outages.puts scene.storage.home key payload ttl tiers) after := by
  induction tiers generalizing scene first with
  | nil => exact ⟨first, scene, Proc.goes_pure _, Outages.puts_nil ▸ .refl⟩
  | cons tier rest ih =>
    obtain ⟨reply, mid, hgoes, hfirst⟩ := goes_setIn outages scene tier key payload ttl
    have hset : Acts outages (setIn tier key payload ttl) scene (putsInto [tier] key payload ttl) reply mid :=
      ⟨rfl, hgoes.run⟩
    obtain ⟨reply', after, hwrite, hrest⟩ : ∃ reply' after,
        Acts outages (writeEach key payload ttl first (tier :: rest)) scene
          (putsInto (tier :: rest) key payload ttl) reply' after ∧
        mid.Alters (outages.puts mid.storage.home key payload ttl rest) after := by
      cases reply with
      | ok =>
        obtain ⟨reply', after, hwrite, hrest⟩ := ih mid first
        exact ⟨reply', after, hset.bind hwrite, hrest⟩
      | error e =>
        obtain ⟨reply', after, hwrite, hrest⟩ := ih mid (first.bind fun _ => .error e)
        exact ⟨reply', after, hset.bind (Acts.notice _ hwrite), hrest⟩
    refine ⟨reply', after, hwrite, (hfirst.trans hrest).congr fun home k => ?_⟩
    rw [Outages.puts_cons tier rest, funext hfirst.home_eq]

theorem acts_spreadWrite (stack : Stack) (outages : Outages) (scene : Scene) (key : String)
    (payload : Bytes) (ttl : Duration) :
    ∃ reply after,
      Acts outages
        (do
          let ttl ← stack.jittered ttl
          writeEach key payload ttl (.ok ()) stack.tiers)
        scene (putsInto stack.tiers key payload (stack.settings.spread ttl scene.draws).1) reply after ∧
      after.guard = scene.guard ∧
      scene.Becomes (outages.puts scene.storage.home key payload
        (stack.settings.spread ttl scene.draws).1 stack.tiers) after := by
  obtain ⟨reply, after, hwrite, halters⟩ := acts_writeEach outages
    { scene with draws := (stack.settings.spread ttl scene.draws).2 } key payload
    (stack.settings.spread ttl scene.draws).1 (.ok ()) stack.tiers
  refine ⟨reply, after, (acts_jittered stack outages scene ttl).unseen hwrite, ?_,
    halters.becomes.transport rfl rfl⟩
  rw [halters.rest]

def loadedRecord (stack : Stack) (asked : Duration) (draws : Nat → Rat) :
    Except CacheError Loaded → Option (Bytes × Duration)
  | .ok loaded =>
    some (Record.encode loaded.value, (stack.settings.spread (stack.loadedTtl asked loaded) draws).1)
  | .error e =>
    if e.isNotFound then
      some (Record.encodeNegative, (stack.settings.spread stack.settings.negativeTtl draws).1)
    else none

def loadDeeds (stack : Stack) (key : String) (loader : ScriptedLoader) :
    Option (Bytes × Duration) → List (CacheRequest ScriptedLoader)
  | some (payload, ttl) => .load loader :: putsInto stack.tiers (stack.fullKey key) payload ttl
  | none => [.load loader]

def loadChanges (stack : Stack) (outages : Outages) (homeOf : Nat → Nat ⊕ Nat) (key : String) :
    Option (Bytes × Duration) → Nat ⊕ Nat → String → Change
  | some (payload, ttl) => outages.puts homeOf (stack.fullKey key) payload ttl stack.tiers
  | none => fun _ _ => .kept

/-- Failing to cache what was loaded is no failure. -/
theorem acts_loadWith (stack : Stack) (outages : Outages) (scene : Scene) (key : String)
    (loader : ScriptedLoader) (asked : Duration)
    (hrecord : stack.loadedRecord asked scene.draws loader.single = record) :
    ∃ after, Acts outages (stack.loadWith key loader (stack.resolveTtl asked)) scene
        (stack.loadDeeds key loader record) loader.outcome after ∧
      after.guard = scene.guard ∧
      scene.Becomes (stack.loadChanges outages scene.storage.home key record) after := by
  subst hrecord
  have hload : Acts outages (load loader) scene [.load loader] loader.single scene := ⟨rfl, rfl⟩
  unfold ScriptedLoader.outcome loadedRecord
  cases hsingle : loader.single with
  | ok loaded =>
    rw [hsingle] at hload
    obtain ⟨reply, after, hset, hguard, hbecomes⟩ := acts_spreadWrite stack outages scene
      (stack.fullKey key) (Record.encode loaded.value) (stack.loadedTtl asked loaded)
    refine ⟨after, Acts.count _ (hload.bind ?_), hguard, hbecomes⟩
    simp only [set, ttlOr_resolveTtl, resolveTtl_loadedTtl]
    refine hset.then_unseen ?_
    cases reply with
    | ok _ => exact Proc.goes_pure _
    | error e => exact Acts.notice _ (Proc.goes_pure _)
  | error e =>
    rw [hsingle] at hload
    cases hnotFound : e.isNotFound with
    | true =>
      obtain ⟨reply, after, hset, hguard, hbecomes⟩ := acts_spreadWrite stack outages scene
        (stack.fullKey key) Record.encodeNegative stack.settings.negativeTtl
      simp only [hnotFound, ↓reduceIte]
      refine ⟨after, Acts.count _ (hload.bind ?_), hguard, hbecomes⟩
      simp only [hnotFound, ↓reduceIte]
      refine Acts.notice _ (hset.then_unseen ?_)
      cases reply with
      | ok _ => exact Proc.goes_pure _
      | error e => exact Acts.notice _ (Proc.goes_pure _)
    | false =>
      simp only [hnotFound, Bool.false_eq_true, ↓reduceIte]
      refine ⟨scene, Acts.count _ (hload.bind ?_), rfl, Scene.Alters.refl.becomes⟩
      simp only [hnotFound, Bool.false_eq_true, ↓reduceIte]
      exact Proc.goes_pure _

/-- On a flight of its own the caller makes its load, and nobody is on board afterwards. -/
theorem acts_share (hidle : Idle scene.guard) (key : String) {load : CacheProc ScriptedLoader Outcome}
    (hload : ∀ led, ∃ after, Acts outages load { scene with guard := led } deeds outcome after ∧
      after.guard = led ∧ scene.Becomes changes after) :
    ∃ after, Acts outages (share key load) scene deeds (outcome.mapError (·.share)) after ∧
      Idle after.guard ∧ scene.Becomes changes after := by
  obtain ⟨led, hask, hleft⟩ := leads_alone hidle key
  obtain ⟨after, hgo, hguard, hbecomes⟩ := hload led
  have hjoin : Acts outages (ask (.join key)) scene [] (scene.guard.join key).1
      { scene with guard := (scene.guard.join key).2 } := ⟨rfl, rfl⟩
  have hturn : Acts outages (ask (.turn (scene.guard.join key).1))
      { scene with guard := (scene.guard.join key).2 } [] none { scene with guard := led } := by
    refine ⟨?_, ?_⟩
    · simp only [ask, Proc.request, Proc.told, List.flatMap_cons, List.flatMap_nil]
      rfl
    · simp only [ask, Proc.request, Proc.run, Outages.answer, Scene.answer, hask]
  subst hguard
  exact ⟨_, hjoin.unseen (hturn.unseen (hgo.then_unseen ⟨rfl, rfl⟩)), hleft outcome, hbecomes.now,
    hbecomes.alters⟩

theorem Decides.nothing {stack : Stack} {key : String} {payload : Bytes} {upper : List Tier}
    (h : stack.Decides outages scene key (.ok .miss) payload upper) :
    (∀ tier ∈ stack.tiers, scene.reading outages (stack.fullKey key) tier = .nothing) ∧ upper = [] := by
  cases h with
  | miss hnothing => exact ⟨hnothing, rfl⟩

theorem Decides.eq_miss {stack : Stack} {key : String} {found : Except CacheError Lookup} {payload : Bytes}
    {upper : List Tier} (h : stack.Decides outages scene key found payload upper)
    (hnothing : ∀ tier ∈ stack.tiers, scene.reading outages (stack.fullKey key) tier = .nothing) :
    found = .ok .miss := by
  have hdecider {above below : List Tier} {tier : Tier} (htiers : stack.tiers = above ++ tier :: below) :
      scene.reading outages (stack.fullKey key) tier = .nothing :=
    hnothing tier (htiers ▸ List.mem_append_right _ List.mem_cons_self)
  cases h with
  | miss => rfl
  | failed htiers _ h => cases (hdecider htiers).symm.trans h
  | negative htiers _ h => cases (hdecider htiers).symm.trans h
  | value htiers _ h => cases (hdecider htiers).symm.trans h

theorem acts_getOr_miss {stack : Stack} {key : String} {onMiss : CacheProc ScriptedLoader Outcome}
    {post : Scene → Prop}
    (hnothing : ∀ tier ∈ stack.tiers, scene.reading outages (stack.fullKey key) tier = .nothing)
    (hmiss : ∀ mid, scene.Alters (fun _ _ => .kept) mid →
      ∃ after, Acts outages onMiss mid deeds outcome after ∧ post after) :
    ∃ after, Acts outages (stack.getOr key onMiss) scene deeds outcome after ∧ post after := by
  obtain ⟨found, payload, upper, mid, hdecides, hget, halters⟩ := acts_get stack outages scene key
  cases hdecides.eq_miss hnothing
  obtain ⟨-, rfl⟩ := hdecides.nothing
  rw [Outages.puts_nil] at halters
  obtain ⟨after, hgo, hpost⟩ := hmiss mid halters
  exact ⟨after, hget.bind hgo, hpost⟩

theorem acts_readThrough (stack : Stack) (scene : Scene) {key : String} (loader : ScriptedLoader)
    (asked : Duration) (hrecord : stack.loadedRecord asked scene.draws loader.single = record)
    (hnothing : ∀ tier ∈ stack.tiers, scene.reading outages (stack.fullKey key) tier = .nothing) :
    ∃ after, Acts outages (stack.getOr key (stack.loadWith key loader (stack.resolveTtl asked))) scene
        (stack.loadDeeds key loader record) loader.outcome after ∧
      after.guard = scene.guard ∧
      scene.Becomes (stack.loadChanges outages scene.storage.home key record) after := by
  refine acts_getOr_miss hnothing fun mid hkept => ?_
  have hdraws : mid.draws = scene.draws := by rw [hkept.rest]
  have hguard : mid.guard = scene.guard := by rw [hkept.rest]
  obtain ⟨after, hgo, hsame, hbecomes⟩ :=
    acts_loadWith stack outages mid key loader asked (hdraws ▸ hrecord)
  rw [funext hkept.home_eq] at hbecomes
  exact ⟨after, hgo, hsame.trans hguard, hbecomes.following hkept⟩

def received (policy : ReadPolicy) (outcome : Outcome) : Outcome :=
  match policy with
  | .cacheAside => outcome
  | .singleFlight => outcome.mapError (·.share)

theorem acts_remember_miss {stack : Stack} {key : String} (hidle : Idle scene.guard)
    (hnothing : ∀ tier ∈ stack.tiers, scene.reading outages (stack.fullKey key) tier = .nothing)
    (loader : ScriptedLoader) (options : RememberOptions)
    (hrecord : stack.loadedRecord (options.ttl.getD .zero) scene.draws loader.single = record) :
    ∃ after, Acts outages (stack.remember key loader options) scene (stack.loadDeeds key loader record)
        (received (options.policy.getD stack.settings.policy) loader.outcome) after ∧
      Idle after.guard ∧
      scene.Becomes (stack.loadChanges outages scene.storage.home key record) after := by
  unfold remember received
  cases options.policy.getD stack.settings.policy with
  | cacheAside =>
    obtain ⟨after, hgo, hguard, hbecomes⟩ :=
      acts_readThrough stack scene loader (options.ttl.getD .zero) hrecord hnothing
    exact ⟨after, hgo, hguard ▸ hidle, hbecomes⟩
  | singleFlight =>
    refine acts_getOr_miss hnothing fun mid hkept => ?_
    have hdraws : mid.draws = scene.draws := by rw [hkept.rest]
    have hguard : mid.guard = scene.guard := by rw [hkept.rest]
    -- On the flight the layers are read once more, and they are as they were.
    have hflight (led : Flights) :
        ∃ after, Acts outages (stack.getOr key (stack.loadWith key loader
            (stack.resolveTtl (options.ttl.getD .zero)))) { mid with guard := led }
            (stack.loadDeeds key loader record) loader.outcome after ∧
          after.guard = led ∧
          mid.Becomes (stack.loadChanges outages scene.storage.home key record) after := by
      obtain ⟨after, hgo, hsame, hbecomes⟩ :=
        acts_readThrough stack { mid with guard := led } loader (options.ttl.getD .zero)
          (hdraws ▸ hrecord) fun tier htier => (hkept.reading_eq _ tier).trans (hnothing tier htier)
      rw [← funext hkept.home_eq]
      exact ⟨after, hgo, hsame, hbecomes.transport rfl rfl⟩
    obtain ⟨after, hgo, hleft, hbecomes⟩ := acts_share (hguard ▸ hidle) (stack.fullKey key) hflight
    exact ⟨after, hgo, hleft, hbecomes.following hkept⟩

def settled : Except CacheError Lookup → Outcome
  | .error e => .error e
  | .ok (.hit value) => .ok value
  | .ok _ => .error .notFound

theorem acts_remember_settled {stack : Stack} {key : String} {found : Except CacheError Lookup}
    {after : Scene} (hget : Acts outages (stack.get key) scene deeds found after) (hfound : found ≠ .ok .miss)
    (loader : ScriptedLoader) (options : RememberOptions) :
    Acts outages (stack.remember key loader options) scene deeds (settled found) after := by
  refine hget.then_unseen ?_
  match found with
  | .error e => exact Proc.goes_pure _
  | .ok (.hit value) => exact Proc.goes_pure _
  | .ok .negative => exact Proc.goes_pure _
  | .ok .miss => exact absurd rfl hfound

end

end Stack

open Stack in
/-- One caller of a loader, under either policy, whatever is in the layers and whichever of them cannot be
read or written. Unless the lookup is a miss, the loader is not called: a failure is passed on, a value is
returned and only copied upwards, and a negative record is not found. After a miss the loader is called
once. What it returns is returned, and written to all layers that can be written, and so is a negative
record when it finds nothing. Any other failure of the loader is passed on, or a copy of it under single
flight, and nothing is written. The policy makes no difference to what is done and to what is live
afterwards, and nobody is left on a flight. -/
theorem remember_alone (stack : Stack) (outages : Outages) (scene : Scene) (hidle : Idle scene.guard)
    (key : String) (loader : ScriptedLoader) (asked : Option Duration) :
    ∃ (found : Except CacheError Lookup) (payload : Bytes) (upper : List Tier)
      (deeds : List (CacheRequest ScriptedLoader)) (live : Nat → String → Instant → Option Item),
      stack.Decides outages scene key found payload upper ∧
      ∀ policy : Option ReadPolicy, ∃ (outcome : Outcome) (after : Scene),
        Acts outages (stack.remember key loader ⟨asked, policy⟩) scene deeds outcome after ∧
        Idle after.guard ∧ after.guard.inFlight = scene.guard.inFlight ∧
        (∀ slot k t, scene.now ≤ t → after.item? slot k t = live slot k t) ∧
        match found, loader.single with
        | .error e, _ => deeds = [] ∧ outcome = .error e ∧ scene.Keeps (scene.stored after)
        | .ok (.hit value), _ =>
          deeds = putsInto upper (stack.fullKey key) payload stack.settings.defaultTtl ∧
          outcome = .ok value ∧
          scene.Supplies outages (stack.fullKey key) payload stack.settings.defaultTtl upper
            (scene.stored after)
        | .ok .negative, _ =>
          deeds = [] ∧ outcome = .error .notFound ∧ scene.Keeps (scene.stored after)
        | .ok .miss, .ok loaded =>
          let ttl := (stack.settings.spread (stack.loadedTtl (asked.getD .zero) loaded) scene.draws).1
          deeds = .load loader :: putsInto stack.tiers (stack.fullKey key) (Record.encode loaded.value) ttl ∧
          outcome = .ok loaded.value ∧
          scene.Supplies outages (stack.fullKey key) (Record.encode loaded.value) ttl stack.tiers
            (scene.stored after)
        | .ok .miss, .error e =>
          let ttl := (stack.settings.spread stack.settings.negativeTtl scene.draws).1
          if e.isNotFound then
            deeds = .load loader :: putsInto stack.tiers (stack.fullKey key) Record.encodeNegative ttl ∧
            outcome = .error .notFound ∧
            scene.Supplies outages (stack.fullKey key) Record.encodeNegative ttl stack.tiers
              (scene.stored after)
          else
            deeds = [.load loader] ∧
            outcome = .error (match policy.getD stack.settings.policy with
              | .cacheAside => e
              | .singleFlight => e.share) ∧
            scene.Keeps (scene.stored after) := by
  have hsize {after : Scene} (hafter : Idle after.guard) :
      after.guard.inFlight = scene.guard.inFlight :=
    (size_eq_zero hafter.empty).trans (size_eq_zero hidle.empty).symm
  obtain ⟨found, payload, upper, mid, hdecides, hget, halters⟩ := acts_get stack outages scene key
  by_cases hmiss : found = .ok .miss
  · subst hmiss
    obtain ⟨hnothing, rfl⟩ := hdecides.nothing
    obtain ⟨record, hrecord⟩ :
        ∃ record, stack.loadedRecord (asked.getD .zero) scene.draws loader.single = record := ⟨_, rfl⟩
    refine ⟨.ok .miss, payload, [], stack.loadDeeds key loader record,
      scene.itemAfter (stack.loadChanges outages scene.storage.home key record), hdecides,
      fun policy => ?_⟩
    obtain ⟨after, hgo, hleft, hbecomes⟩ :=
      acts_remember_miss hidle hnothing loader ⟨asked, policy⟩ hrecord
    refine ⟨_, after, hgo, hleft, hsize hleft, fun slot k t ht => hbecomes.item?_eq ht, ?_⟩
    unfold received ScriptedLoader.outcome
    unfold loadedRecord at hrecord
    cases hsingle : loader.single with
    | ok loaded =>
      simp only [hsingle] at hrecord
      subst hrecord
      refine ⟨rfl, ?_, hbecomes.alters.supplies⟩
      cases policy.getD stack.settings.policy <;> rfl
    | error e =>
      cases hnotFound : e.isNotFound with
      | true =>
        simp only [hsingle, hnotFound, ↓reduceIte] at hrecord ⊢
        subst hrecord
        refine ⟨rfl, ?_, hbecomes.alters.supplies⟩
        cases policy.getD stack.settings.policy <;> rfl
      | false =>
        simp only [hsingle, hnotFound, Bool.false_eq_true, ↓reduceIte] at hrecord ⊢
        subst hrecord
        refine ⟨rfl, ?_, hbecomes.alters.keeps⟩
        cases policy.getD stack.settings.policy <;> rfl
  · have hguard : mid.guard = scene.guard := by rw [halters.rest]
    have hleft : Idle mid.guard := hguard ▸ hidle
    have hbecomes := halters.becomes
    refine ⟨found, payload, upper, _, _, hdecides, fun policy => ⟨_, mid,
      acts_remember_settled hget hmiss loader ⟨asked, policy⟩, hleft, hsize hleft,
      fun slot k t ht => hbecomes.item?_eq ht, ?_⟩⟩
    cases hdecides with
    | miss => exact absurd rfl hmiss
    | failed => exact ⟨rfl, rfl, (Outages.puts_nil ▸ hbecomes.alters).keeps⟩
    | negative => exact ⟨rfl, rfl, (Outages.puts_nil ▸ hbecomes.alters).keeps⟩
    | value => exact ⟨rfl, rfl, hbecomes.alters.supplies⟩

def fadedWrites : Outages where
  writes := fun slot => if slot = 1 then some (.timeout "mid" (.ofNanos 1)) else none

theorem remember_alone_faded : ∃ ttl after after',
    Acts fadedWrites (fadedStack.remember "b" generousLoader { policy := some .cacheAside }) fadedLayers
      (.load generousLoader :: putsInto fadedStack.tiers "p:b" (Record.encode [5]) ttl) (.ok [5]) after ∧
    Acts fadedWrites (fadedStack.remember "b" generousLoader { policy := some .singleFlight }) fadedLayers
      (.load generousLoader :: putsInto fadedStack.tiers "p:b" (Record.encode [5]) ttl) (.ok [5]) after' ∧
    (∃ item, after'.item? 0 "p:b" fadedLayers.now = some item ∧ item.payload = Record.encode [5]) ∧
    after'.item? 1 "p:b" fadedLayers.now = none ∧ after'.guard.inFlight = 0 := by
  obtain ⟨found, payload, upper, deeds, live, hdecides, hremember⟩ :=
    remember_alone fadedStack fadedWrites fadedLayers idle_new "b" generousLoader none
  have hnothing : ∀ tier ∈ fadedStack.tiers,
      fadedLayers.reading fadedWrites (fadedStack.fullKey "b") tier = .nothing := by
    simp only [fadedStack, List.forall_mem_cons]
    exact ⟨rfl, rfl, rfl, rfl, List.forall_mem_nil _⟩
  cases hdecides.eq_miss hnothing
  obtain ⟨_, after, hgo, -, -, -, hdeeds, rfl, -⟩ := hremember (some .cacheAside)
  obtain ⟨_, after', hgo', -, hboard, -, rfl, rfl, hsupplies⟩ := hremember (some .singleFlight)
  have hnear : (⟨0, "near", true⟩ : Tier) ∈ fadedStack.tiers := List.mem_cons_self
  obtain ⟨item, hitem, hpayload, -⟩ := hsupplies.taken hnear rfl
  refine ⟨_, after, after', hgo, hgo', ⟨item, hitem, hpayload⟩, ?_, hboard⟩
  exact (hsupplies.kept (Nat.le_refl _) (by decide)).trans (by decide +kernel)

end StackedCache
