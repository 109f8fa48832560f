import StackedCache.Proofs.SceneTraces

/-!
# Lookups among failing layers

Some layers cannot be read, and some cannot be written. A lookup is decided by
the first layer that fails or has a record, and asks no layer below that one.
Only a value changes anything: its payload replaces what the layers above have
under the key.
-/

namespace StackedCache

open Simulation CacheProc Storage

/-- The layers that cannot be read or written, with the errors that they answer. -/
structure Outages where
  reads : Nat → Option CacheError := fun _ => none
  writes : Nat → Option CacheError := fun _ => none
  /-- What a layer tells of the time left to an item, which it need not know. -/
  remaining : Nat → Option Duration → Option Duration := fun _ remaining => remaining

namespace Outages

def error? (outages : Outages) (slot : Nat) : LayerOp → Option CacheError
  | .get _ | .mget _ => outages.reads slot
  | .set .. | .delete _ | .mset .. => outages.writes slot

def retold (outages : Outages) (slot : Nat) : (op : LayerOp) → op.Reply → op.Reply
  | .get _, reply => reply.map (Option.map fun entry =>
      { entry with remaining := outages.remaining slot entry.remaining })
  | _, reply => reply

/-- A call on a layer that fails has no effect. -/
def answer (outages : Outages) : (r : CacheRequest ScriptedLoader) → Scene → r.Reply × Scene
  | .layer slot op, scene =>
    match outages.error? slot op with
    | some e => (.error e, scene)
    | none =>
      let (reply, after) := scene.answer (.layer slot op)
      (outages.retold slot op reply, after)
  | r, scene => scene.answer r

end Outages

inductive Reading where
  /-- There is nothing under the key, or it has expired or is no record. -/
  | nothing
  | failed (e : CacheError)
  | negative
  | value (payload value : Bytes)

def Reading.ofReply : Except CacheError (Option Bytes) → Reading
  | .error e => .failed e
  | .ok none => .nothing
  | .ok (some payload) =>
    match Record.decode payload with
    | none => .nothing
    | some .negative => .negative
    | some (.positive content) => .value payload (Record.positive content).value

namespace Scene

def reading (scene : Scene) (outages : Outages) (key : String) (tier : Tier) : Reading :=
  .ofReply (match outages.reads tier.slot with
    | some e => .error e
    | none => .ok (scene.shown tier.slot key))

def item? (scene : Scene) (slot : Nat) (key : String) (t : Instant) : Option Item :=
  (scene.storage.items slot).liveItem? key t

/-- From now on the same items are live. -/
structure Keeps (before after : Scene) : Prop where
  rest : after = { before with storage := after.storage }
  kept {slot : Nat} {key : String} {t : Instant} (ht : before.now ≤ t) :
    after.item? slot key t = before.item? slot key t

end Scene

/-- The deadline of the item is where the time to live ends. A clock shows no instant from its
horizon on, so an item may do without a deadline there. -/
def Item.Ends (item : Item) (now : Instant) (ttl : Duration) : Prop :=
  if ttl.isZero then item.deadline = none
  else item.deadline = some (now + ttl.nanos) ∨
    Instant.horizon ≤ now + ttl.nanos ∧ item.deadline = none

/-- The layers of some tiers have a payload for a time if they can be written. Wherever there is none
of these layers, and under all other keys, the same items are live from now on. -/
structure Scene.Supplies (before : Scene) (outages : Outages) (key : String) (payload : Bytes)
    (ttl : Duration) (tiers : List Tier) (after : Scene) : Prop where
  rest : after = { before with storage := after.storage }
  taken {tier : Tier} (htier : tier ∈ tiers) (hwrites : outages.writes tier.slot = none) :
    ∃ item, after.item? tier.slot key before.now = some item ∧ item.payload = payload ∧
      item.Ends before.now ttl
  kept {slot : Nat} {k : String} {t : Instant} (ht : before.now ≤ t)
    (h : k = key → ∀ tier ∈ tiers, outages.writes tier.slot = none →
      before.storage.home tier.slot ≠ before.storage.home slot) :
    after.item? slot k t = before.item? slot k t

-- ---------------------------------------------------------------------------
-- Runs
-- ---------------------------------------------------------------------------

def CacheRequest.layerCalls {Loader : Type} : CacheRequest Loader → List (Nat × LayerOp)
  | .layer slot op => [(slot, op)]
  | _ => []

abbrev GoesAmid {α : Type} (outages : Outages) (p : CacheProc ScriptedLoader α) (scene : Scene)
    (calls : List (Nat × LayerOp)) (a : α) (after : Scene) : Prop :=
  p.Goes outages.answer (fun e : CacheExchange => e.1.layerCalls) scene calls a after

section
variable {β : Type} {outages : Outages} {scene after : Scene} {calls : List (Nat × LayerOp)}
  {f : Unit → CacheProc ScriptedLoader β} {b : β}

theorem GoesAmid.notice (n : Notice) (hf : GoesAmid outages (f ()) scene calls b after) :
    GoesAmid outages (CacheProc.notice n >>= f) scene calls b after :=
  Proc.Goes.unseen ⟨rfl, rfl⟩ hf

theorem GoesAmid.count (c : Count) (hf : GoesAmid outages (f ()) scene calls b after) :
    GoesAmid outages (CacheProc.count c >>= f) scene calls b after :=
  Proc.Goes.unseen ⟨rfl, rfl⟩ hf

end

-- ---------------------------------------------------------------------------
-- Changes
-- ---------------------------------------------------------------------------

def Change.andThen (first : Change) : Change → Change
  | .kept => first
  | second => second

theorem Changed.andThen {now : Instant} {make : Bytes → Duration → Item} {key : String}
    {first second : Change} {before mid after : Table Item} (h : Changed now make key first before mid)
    (h' : Changed now make key second mid after) :
    Changed now make key (first.andThen second) before after := by
  cases second with
  | kept => exact h.trans h'
  | removed => exact fun t ht => h' t ht
  | put payload ttl => exact fun t ht => h' t ht

structure Scene.Alters (before : Scene) (changes : Nat ⊕ Nat → String → Change) (after : Scene) :
    Prop where
  rest : after = { before with storage := after.storage }
  backing : after.storage.backing = before.storage.backing
  changed (home : Nat ⊕ Nat) (key : String) : Changed before.now (itemAt home before.now) key
    (changes home key) (before.storage.itemsAt home) (after.storage.itemsAt home)

/-- What it comes to at a home when a payload is put into the layers of some tiers. -/
def Outages.puts (outages : Outages) (homeOf : Nat → Nat ⊕ Nat) (key : String) (payload : Bytes)
    (ttl : Duration) (tiers : List Tier) (home : Nat ⊕ Nat) (k : String) : Change :=
  if k = key ∧ ∃ tier ∈ tiers, outages.writes tier.slot = none ∧ homeOf tier.slot = home then
    .put payload ttl
  else .kept

section
variable {outages : Outages} {scene mid after : Scene} {key k : String} {payload : Bytes}
  {ttl : Duration} {tiers : List Tier} {changes changes' : Nat ⊕ Nat → String → Change}
  {homeOf : Nat → Nat ⊕ Nat} {home : Nat ⊕ Nat}

namespace Scene.Alters

theorem refl : scene.Alters (fun _ _ => .kept) scene := ⟨rfl, rfl, fun _ _ => .refl⟩

theorem now_eq (h : scene.Alters changes after) : after.now = scene.now := by
  rw [h.rest]

theorem home_eq (h : scene.Alters changes after) (slot : Nat) :
    after.storage.home slot = scene.storage.home slot :=
  congrArg (fun backing => (backing slot).home) h.backing

theorem trans (h : scene.Alters changes mid) (h' : mid.Alters changes' after) :
    scene.Alters (fun home key => (changes home key).andThen (changes' home key)) after := by
  refine ⟨?_, h'.backing.trans h.backing, fun home key => ?_⟩
  · rw [h'.rest, h.rest]
  · have hsecond := h'.changed home key
    rw [h.now_eq] at hsecond
    exact (h.changed home key).andThen hsecond

theorem following (h : mid.Alters changes after) (hkept : scene.Alters (fun _ _ => .kept) mid) :
    scene.Alters changes after := by
  have hboth := hkept.trans h
  have hchanges : (fun home key => Change.kept.andThen (changes home key)) = changes := by
    funext home key
    cases changes home key <;> rfl
  rwa [hchanges] at hboth

theorem item?_eq (h : scene.Alters changes after) {slot : Nat} {t : Instant} (ht : scene.now ≤ t) :
    after.item? slot k t = ((changes (scene.storage.home slot) k).apply
      (itemAt (scene.storage.home slot) scene.now) (scene.item? slot k t)).filter (·.isLive t) := by
  unfold item?
  rw [items_eq, h.home_eq, items_eq]
  exact h.changed _ k t ht

theorem item?_kept (h : scene.Alters changes after) {slot : Nat} {t : Instant} (ht : scene.now ≤ t)
    (hkept : changes (scene.storage.home slot) k = .kept) :
    after.item? slot k t = scene.item? slot k t := by
  rw [h.item?_eq ht, hkept]
  exact liveItem_live ..

theorem keeps (h : scene.Alters (fun _ _ => .kept) after) : scene.Keeps after :=
  ⟨h.rest, fun ht => h.item?_kept ht rfl⟩

theorem congr (h : scene.Alters changes after) (hchanges : ∀ home k, changes home k = changes' home k) :
    scene.Alters changes' after :=
  ⟨h.rest, h.backing, fun home k => hchanges home k ▸ h.changed home k⟩

theorem shown_kept (h : scene.Alters changes after) {slot : Nat}
    (hkept : changes (scene.storage.home slot) k = .kept) : after.shown slot k = scene.shown slot k := by
  unfold Scene.shown
  rw [h.now_eq]
  exact congrArg (Option.map Item.payload) (h.item?_kept (Nat.le_refl _) hkept)

theorem reading_eq (h : scene.Alters (fun _ _ => .kept) after) (key : String) (tier : Tier) :
    after.reading outages key tier = scene.reading outages key tier := by
  unfold reading
  rw [h.shown_kept rfl]

end Scene.Alters

theorem alters_perform (scene : Scene) (slot : Nat) (op : LayerOp) :
    scene.Alters (fun home key => if scene.storage.home slot = home then op.change key else .kept)
      { scene with storage := (scene.storage.perform scene.now slot op).2 } :=
  ⟨rfl, perform_backing .., fun home key => scene.storage.perform_changed scene.now slot op home key⟩

theorem itemAt_ends (home : Nat ⊕ Nat) (now : Instant) (payload : Bytes) (ttl : Duration) :
    (itemAt home now payload ttl).Ends now ttl := by
  unfold Item.Ends
  cases hzero : ttl.isZero with
  | true => cases home <;> simp [itemAt, Memory.item, Item.lasting, hzero]
  | false =>
    cases home with
    | inl n =>
      by_cases hclock : now + ttl.nanos < Instant.horizon
      · simp [itemAt, Memory.item, Instant.after?, hzero, hclock]
      · simp [itemAt, Memory.item, Instant.after?, hzero, hclock, Nat.le_of_not_lt hclock]
    | inr n => simp [itemAt, Item.lasting, hzero]

theorem Scene.Alters.item?_put (h : scene.Alters changes after) {slot : Nat}
    (hput : changes (scene.storage.home slot) k = .put payload ttl) :
    ∃ item, after.item? slot k scene.now = some item ∧ item.payload = payload ∧
      item.Ends scene.now ttl := by
  refine ⟨itemAt (scene.storage.home slot) scene.now payload ttl, ?_, itemAt_payload .., itemAt_ends ..⟩
  rw [h.item?_eq (Nat.le_refl _), hput]
  simp [Change.apply, Option.filter, itemAt_isLive]

theorem Outages.puts_cons (tier : Tier) (rest : List Tier) :
    outages.puts homeOf key payload ttl (tier :: rest) home k =
      Change.andThen (outages.puts homeOf key payload ttl [tier] home k)
        (outages.puts homeOf key payload ttl rest home k) := by
  unfold puts
  by_cases hrest : k = key ∧ ∃ tier ∈ rest, outages.writes tier.slot = none ∧ homeOf tier.slot = home
  · have hall : k = key ∧ ∃ tier' ∈ tier :: rest, outages.writes tier'.slot = none ∧
        homeOf tier'.slot = home :=
      hrest.imp_right fun ⟨tier', htier, hwritten⟩ => ⟨tier', List.mem_cons_of_mem _ htier, hwritten⟩
    rw [if_pos hall, if_pos hrest]
    rfl
  · rw [if_neg hrest]
    refine if_congr (and_congr_right fun hk => ?_) rfl rfl
    have hnone : ¬∃ tier ∈ rest, outages.writes tier.slot = none ∧ homeOf tier.slot = home :=
      fun hsome => hrest ⟨hk, hsome⟩
    simp [hnone]

theorem Scene.Alters.supplies
    (h : scene.Alters (outages.puts scene.storage.home key payload ttl tiers) after) :
    scene.Supplies outages key payload ttl tiers after := by
  refine ⟨h.rest, fun {tier} htier hwrites => ?_, fun ht hother => ?_⟩
  · exact h.item?_put (if_pos ⟨rfl, tier, htier, hwrites, rfl⟩)
  · refine h.item?_kept ht (if_neg ?_)
    rintro ⟨hk, tier, htier, hwrites, hhome⟩
    exact hother hk tier htier hwrites hhome

end

-- ---------------------------------------------------------------------------
-- Lookups
-- ---------------------------------------------------------------------------

section
variable {outages : Outages} {scene after : Scene} {key : String} {payload : Bytes}
  {a : Except CacheError Lookup}

theorem goes_getFrom (outages : Outages) (scene : Scene) (tier : Tier) (key : String) :
    ∃ reply after, GoesAmid outages (getFrom tier key) scene [(tier.slot, .get key)] reply after ∧
      scene.Alters (fun _ _ => .kept) after ∧
      scene.reading outages key tier = .ofReply (reply.map (Option.map Entry.payload)) := by
  unfold Scene.reading
  cases hreads : outages.reads tier.slot with
  | some e =>
    refine ⟨.error e, scene, ⟨rfl, ?_⟩, .refl, rfl⟩
    simp only [getFrom, ask, Proc.request, Proc.run, Outages.answer, Outages.error?, hreads]
  | none =>
    obtain ⟨⟨found, hreply, hfound⟩, -⟩ := get_spec scene.storage scene.now tier.slot key
    refine ⟨outages.retold tier.slot (.get key) (.ok found), _, ⟨rfl, ?_⟩,
      (alters_perform scene tier.slot (.get key)).congr fun _ _ => ite_self _, ?_⟩
    · simp only [getFrom, ask, Proc.request, Proc.run, Outages.answer, Outages.error?, hreads]
      exact Prod.ext (congrArg (outages.retold tier.slot (.get key)) hreply) rfl
    · refine congrArg (fun shown => Reading.ofReply (.ok shown)) ?_
      rw [Option.map_map]
      exact hfound.symm

theorem goes_setIn (outages : Outages) (scene : Scene) (tier : Tier) (key : String) (payload : Bytes)
    (ttl : Duration) :
    ∃ reply after, GoesAmid outages (setIn tier key payload ttl) scene [(tier.slot, .set key payload ttl)]
        reply after ∧
      scene.Alters (outages.puts scene.storage.home key payload ttl [tier]) after := by
  cases hwrites : outages.writes tier.slot with
  | some e =>
    refine ⟨.error e, scene, ⟨rfl, ?_⟩, Scene.Alters.refl.congr fun home k => ?_⟩
    · simp only [setIn, ask, Proc.request, Proc.run, Outages.answer, Outages.error?, hwrites]
    · simp [Outages.puts, hwrites]
  | none =>
    obtain ⟨hreply, -⟩ := set_spec scene.storage scene.now tier.slot key payload ttl
    refine ⟨.ok (), _, ⟨rfl, ?_⟩, (alters_perform scene tier.slot (.set key payload ttl)).congr ?_⟩
    · simp only [setIn, ask, Proc.request, Proc.run, Outages.answer, Outages.error?, hwrites]
      exact Prod.ext hreply rfl
    · intro home k
      simp only [Outages.puts, List.mem_singleton, exists_eq_left, hwrites, true_and, LayerOp.change]
      by_cases hk : k = key
      · simp [hk]
      · simp [hk, Ne.symm hk]

theorem goes_backfill (stack : Stack) (scene : Scene) (payload : Bytes) (tiers : List Tier) :
    ∃ after, GoesAmid outages (stack.backfill key payload tiers) scene
        (tiers.map fun tier => (tier.slot, .set key payload stack.settings.defaultTtl)) () after ∧
      scene.Alters (outages.puts scene.storage.home key payload stack.settings.defaultTtl tiers) after := by
  induction tiers generalizing scene with
  | nil =>
    refine ⟨scene, Proc.goes_pure (), Scene.Alters.refl.congr fun home k => ?_⟩
    simp [Outages.puts]
  | cons tier rest ih =>
    obtain ⟨reply, mid, hset, hfirst⟩ :=
      goes_setIn outages scene tier key payload stack.settings.defaultTtl
    obtain ⟨after, hcopy, hrest⟩ := ih mid
    refine ⟨after, hset.bind ?_, (hfirst.trans hrest).congr fun home k => ?_⟩
    · cases reply <;> exact GoesAmid.notice _ hcopy
    · rw [Outages.puts_cons tier rest, funext hfirst.home_eq]

theorem goes_past (stack : Stack) {upper : List Tier} (lower : List Tier)
    (h : ∀ tier ∈ upper, scene.reading outages key tier = .nothing) (above : List Tier) :
    ∃ mid, scene.Alters (fun _ _ => .kept) mid ∧
      ∀ calls a after, GoesAmid outages (stack.readFrom key (above ++ upper) lower) mid calls a after →
        GoesAmid outages (stack.readFrom key above (upper ++ lower)) scene
          ((upper.map fun tier => (tier.slot, .get key)) ++ calls) a after := by
  induction upper generalizing scene above with
  | nil =>
    refine ⟨scene, .refl, fun calls a after hgoes => ?_⟩
    simpa using hgoes
  | cons tier upper ih =>
    obtain ⟨hnothing, hupper⟩ := List.forall_mem_cons.mp h
    obtain ⟨reply, next, hget, hkept, hreading⟩ := goes_getFrom outages scene tier key
    have hupper' := fun tier htier => (hkept.reading_eq key tier).trans (hupper tier htier)
    obtain ⟨mid, hkept', hpast⟩ := ih hupper' (above ++ [tier])
    refine ⟨mid, hkept'.following hkept, fun calls a after hgoes => ?_⟩
    have hrest := hpast calls a after (by simpa using hgoes)
    refine hget.bind ?_
    rw [hnothing] at hreading
    match reply with
    | .error e => cases hreading
    | .ok none => exact hrest
    | .ok (some entry) =>
      simp only [Except.map, Option.map_some, Reading.ofReply] at hreading
      split at hreading
      · rename_i hdecode
        simp only [hdecode]
        exact GoesAmid.notice _ hrest
      · cases hreading
      · cases hreading

/-- A layer that has a value has it in a place of its own: the layers above have nothing. -/
theorem home_ne_of_reading {tier above : Tier} {value : Bytes}
    (hreading : scene.reading outages key tier = .value payload value)
    (habove : scene.reading outages key above = .nothing) :
    scene.storage.home above.slot ≠ scene.storage.home tier.slot := by
  intro hhome
  have hshown : scene.shown above.slot key = scene.shown tier.slot key := by
    unfold Scene.shown
    rw [items_eq, items_eq, hhome]
  unfold Scene.reading at hreading habove
  cases hreads : outages.reads tier.slot with
  | some e => simp [hreads, Reading.ofReply] at hreading
  | none =>
    cases hreads' : outages.reads above.slot with
    | some e => simp [hreads', Reading.ofReply] at habove
    | none =>
      simp only [hreads, ← hshown] at hreading
      simp only [hreads', hreading] at habove
      cases habove

theorem goes_at (outages : Outages) (stack : Stack) (scene : Scene) (key : String) (above : List Tier)
    (tier : Tier) (below : List Tier) :
    match scene.reading outages key tier with
    | .nothing => True
    | .failed e => ∃ after, GoesAmid outages (stack.readFrom key above (tier :: below)) scene
        [(tier.slot, .get key)] (.error e) after ∧ scene.Alters (fun _ _ => .kept) after
    | .negative => ∃ after, GoesAmid outages (stack.readFrom key above (tier :: below)) scene
        [(tier.slot, .get key)] (.ok .negative) after ∧ scene.Alters (fun _ _ => .kept) after
    | .value payload value => ∃ after, GoesAmid outages (stack.readFrom key above (tier :: below)) scene
        ((tier.slot, .get key) :: above.map fun tier =>
          (tier.slot, .set key payload stack.settings.defaultTtl)) (.ok (.hit value)) after ∧
        scene.Alters (outages.puts scene.storage.home key payload stack.settings.defaultTtl above) after := by
  obtain ⟨reply, mid, hget, hkept, hreading⟩ := goes_getFrom outages scene tier key
  rw [hreading]
  match reply with
  | .error e => exact ⟨mid, hget.then_unseen (Proc.goes_pure _), hkept⟩
  | .ok none => trivial
  | .ok (some entry) =>
    simp only [Except.map, Option.map_some, Reading.ofReply]
    cases hdecode : Record.decode entry.payload with
    | none => trivial
    | some record =>
      cases record with
      | negative =>
        refine ⟨mid, hget.then_unseen ?_, hkept⟩
        simp only [hdecode]
        exact GoesAmid.notice _ (GoesAmid.count _ (Proc.goes_pure _))
      | positive content =>
        obtain ⟨after, hcopy, hputs⟩ := goes_backfill stack mid entry.payload above
        rw [funext hkept.home_eq] at hputs
        refine ⟨after, hget.bind ?_, hputs.following hkept⟩
        simp only [hdecode]
        refine GoesAmid.notice _ (GoesAmid.count _ ?_)
        exact hcopy.then_unseen (Proc.goes_pure _)

/-- The layers decide a lookup: what it answers, and the payload that is copied into the layers above
the one where it was found. -/
inductive Stack.Decides (stack : Stack) (outages : Outages) (scene : Scene) (key : String) :
    Except CacheError Lookup → Bytes → List Tier → Prop
  | miss (h : ∀ tier ∈ stack.tiers, scene.reading outages (stack.fullKey key) tier = .nothing) :
      Decides stack outages scene key (.ok .miss) [] []
  | failed {upper below : List Tier} {tier : Tier} {e : CacheError}
      (htiers : stack.tiers = upper ++ tier :: below)
      (hupper : ∀ tier ∈ upper, scene.reading outages (stack.fullKey key) tier = .nothing)
      (h : scene.reading outages (stack.fullKey key) tier = .failed e) :
      Decides stack outages scene key (.error e) [] []
  | negative {upper below : List Tier} {tier : Tier} (htiers : stack.tiers = upper ++ tier :: below)
      (hupper : ∀ tier ∈ upper, scene.reading outages (stack.fullKey key) tier = .nothing)
      (h : scene.reading outages (stack.fullKey key) tier = .negative) :
      Decides stack outages scene key (.ok .negative) [] []
  | value {upper below : List Tier} {tier : Tier} {payload value : Bytes}
      (htiers : stack.tiers = upper ++ tier :: below)
      (hupper : ∀ tier ∈ upper, scene.reading outages (stack.fullKey key) tier = .nothing)
      (h : scene.reading outages (stack.fullKey key) tier = .value payload value) :
      Decides stack outages scene key (.ok (.hit value)) payload upper

theorem exists_decider (outages : Outages) (scene : Scene) (key : String) (tiers : List Tier) :
    (∀ tier ∈ tiers, scene.reading outages key tier = .nothing) ∨
    ∃ upper tier below, tiers = upper ++ tier :: below ∧
      (∀ tier ∈ upper, scene.reading outages key tier = .nothing) ∧
      scene.reading outages key tier ≠ .nothing := by
  induction tiers with
  | nil => exact .inl (List.forall_mem_nil _)
  | cons tier tiers ih =>
    by_cases hfirst : scene.reading outages key tier = .nothing
    · rcases ih with hall | ⟨upper, decider, below, rfl, hupper, hdecider⟩
      · exact .inl (List.forall_mem_cons.mpr ⟨hfirst, hall⟩)
      · exact .inr ⟨tier :: upper, decider, below, rfl, List.forall_mem_cons.mpr ⟨hfirst, hupper⟩, hdecider⟩
    · exact .inr ⟨[], tier, tiers, rfl, List.forall_mem_nil _, hfirst⟩

theorem Outages.puts_nil {homeOf : Nat → Nat ⊕ Nat} {ttl : Duration} :
    outages.puts homeOf key payload ttl [] = fun _ _ => .kept := by
  simp [funext_iff, puts]

/-- All that a lookup can do: it answers as the layers decide, and of its calls on them only the copies
change anything. -/
theorem goes_get (stack : Stack) (outages : Outages) (scene : Scene) (key : String) :
    ∃ reads found payload upper after, stack.Decides outages scene key found payload upper ∧
      GoesAmid outages (stack.get key) scene
        ((reads : List Tier).map (fun tier => (tier.slot, .get (stack.fullKey key))) ++
          upper.map fun tier => (tier.slot, .set (stack.fullKey key) payload stack.settings.defaultTtl))
        found after ∧
      scene.Alters (outages.puts scene.storage.home (stack.fullKey key) payload
        stack.settings.defaultTtl upper) after := by
  rcases exists_decider outages scene (stack.fullKey key) stack.tiers with
    hnothing | ⟨upper, tier, below, htiers, hupper, hdecides⟩
  · obtain ⟨mid, hkept, hpast⟩ := goes_past stack [] hnothing []
    have hmiss : GoesAmid outages (stack.readFrom (stack.fullKey key) ([] ++ stack.tiers) []) mid []
        (.ok .miss) mid := GoesAmid.notice _ (GoesAmid.count _ (Proc.goes_pure _))
    refine ⟨stack.tiers, _, [], [], mid, .miss hnothing, ?_, Outages.puts_nil ▸ hkept⟩
    simpa [Stack.get] using hpast _ _ _ hmiss
  · obtain ⟨mid, hkept, hpast⟩ := goes_past stack (tier :: below) hupper []
    have hat := goes_at outages stack mid (stack.fullKey key) ([] ++ upper) tier below
    rw [hkept.reading_eq, List.nil_append] at hat
    have hread {copies : List (Nat × LayerOp)} {found : Except CacheError Lookup} {after : Scene}
        (h : GoesAmid outages (stack.readFrom (stack.fullKey key) upper (tier :: below)) mid
          ((tier.slot, .get (stack.fullKey key)) :: copies) found after) :
        GoesAmid outages (stack.get key) scene
          ((upper ++ [tier]).map (fun tier => (tier.slot, .get (stack.fullKey key))) ++ copies) found
          after := by
      simpa [Stack.get, htiers] using hpast _ _ _ h
    cases hreading : scene.reading outages (stack.fullKey key) tier with
    | nothing => exact absurd hreading hdecides
    | failed e =>
      simp only [hreading] at hat
      obtain ⟨after, hgoes, hafter⟩ := hat
      exact ⟨_, _, [], [], after, .failed htiers hupper hreading, hread hgoes,
        Outages.puts_nil ▸ hafter.following hkept⟩
    | negative =>
      simp only [hreading] at hat
      obtain ⟨after, hgoes, hafter⟩ := hat
      exact ⟨_, _, [], [], after, .negative htiers hupper hreading, hread hgoes,
        Outages.puts_nil ▸ hafter.following hkept⟩
    | value payload value =>
      simp only [hreading] at hat
      obtain ⟨after, hgoes, hputs⟩ := hat
      rw [funext hkept.home_eq] at hputs
      exact ⟨_, _, payload, upper, after, .value htiers hupper hreading, hread hgoes,
        hputs.following hkept⟩

end

/-- Whatever is in the layers, and whichever of them cannot be read or written: a lookup reads the
layers from the closest one down to the first that fails or has a record, and no layer below. The failure, or
the mark that there is no value, is passed on, and nothing is written. A value is passed on too, and just
what the layer has for it is written to each layer above for the default time, which is not spread; no
failure of these writes is told. If there is no such layer, it is a miss and nothing is written. -/
theorem get_decided (stack : Stack) (outages : Outages) (scene : Scene) (key : String) :
    ((∀ tier ∈ stack.tiers, scene.reading outages (stack.settings.keyPrefix ++ key) tier = .nothing) →
      ∃ after, GoesAmid outages (stack.get key) scene
        (stack.tiers.map fun tier => (tier.slot, .get (stack.settings.keyPrefix ++ key))) (.ok .miss) after ∧
      scene.Keeps after) ∧
    ∀ upper decider lower, stack.tiers = upper ++ decider :: lower →
      (∀ tier ∈ upper, scene.reading outages (stack.settings.keyPrefix ++ key) tier = .nothing) →
      let reads := (upper ++ [decider]).map fun tier => (tier.slot, .get (stack.settings.keyPrefix ++ key))
      match scene.reading outages (stack.settings.keyPrefix ++ key) decider with
      | .nothing => True
      | .failed e => ∃ after, GoesAmid outages (stack.get key) scene reads (.error e) after ∧ scene.Keeps after
      | .negative =>
        ∃ after, GoesAmid outages (stack.get key) scene reads (.ok .negative) after ∧ scene.Keeps after
      | .value payload value => ∃ after,
        GoesAmid outages (stack.get key) scene
          (reads ++ upper.map fun tier =>
            (tier.slot, .set (stack.settings.keyPrefix ++ key) payload stack.settings.defaultTtl))
          (.ok (.hit value)) after ∧
        scene.Supplies outages (stack.settings.keyPrefix ++ key) payload stack.settings.defaultTtl upper after ∧
        ∀ t, scene.now ≤ t → after.item? decider.slot (stack.settings.keyPrefix ++ key) t =
          scene.item? decider.slot (stack.settings.keyPrefix ++ key) t := by
  rw [show stack.settings.keyPrefix ++ key = stack.fullKey key from rfl]
  refine ⟨fun hnothing => ?_, fun upper decider lower htiers hnothing => ?_⟩
  · obtain ⟨mid, hkept, hpast⟩ := goes_past stack [] hnothing []
    have hmiss : GoesAmid outages (stack.readFrom (stack.fullKey key) ([] ++ stack.tiers) []) mid []
        (.ok .miss) mid := GoesAmid.notice _ (GoesAmid.count _ (Proc.goes_pure _))
    refine ⟨mid, ?_, hkept.keeps⟩
    simpa [Stack.get] using hpast _ _ _ hmiss
  · obtain ⟨mid, hkept, hpast⟩ := goes_past stack (decider :: lower) hnothing []
    have hat := goes_at outages stack mid (stack.fullKey key) ([] ++ upper) decider lower
    rw [hkept.reading_eq] at hat
    simp only [Stack.get, htiers, List.map_append, List.map_cons, List.map_nil]
    cases hreading : scene.reading outages (stack.fullKey key) decider with
    | nothing => trivial
    | failed e =>
      simp only [hreading] at hat
      obtain ⟨after, hgoes, hafter⟩ := hat
      exact ⟨after, hpast _ _ _ hgoes, (hafter.following hkept).keeps⟩
    | negative =>
      simp only [hreading] at hat
      obtain ⟨after, hgoes, hafter⟩ := hat
      exact ⟨after, hpast _ _ _ hgoes, (hafter.following hkept).keeps⟩
    | value payload value =>
      simp only [hreading] at hat
      obtain ⟨after, hgoes, hputs⟩ := hat
      rw [funext hkept.home_eq] at hputs
      have hsupplies := (hputs.following hkept).supplies
      refine ⟨after, ?_, hsupplies, fun t ht => hsupplies.kept ht fun _ tier htier _ => ?_⟩
      · simpa using hpast _ _ _ hgoes
      · exact home_ne_of_reading hreading (hnothing tier htier)

/-- Two layers in memory, the first with something that is no record and the second with something that
has expired, above two stores. -/
def fadedLayers : Scene where
  now := 10 ^ 12
  storage :=
    { backing := fun slot => if slot < 2 then .memory slot else .network ⟨"remote", none⟩ slot
      memories := fun n =>
        { limit := 0
          entries := Table.ofList [("p:a", if n = 0 then ⟨[0], none⟩ else ⟨Record.encode [1], some 0⟩)] }
      stores := fun n =>
        { batched := true
          rules := []
          items := Table.ofList [("p:a", ⟨Record.encode [n.toUInt8], none⟩)] } }
  draws := fun _ => 0

def fadedStack : Stack :=
  ⟨CacheConfig.settings { keyPrefix := "p:" }, [⟨0, "near", true⟩, ⟨1, "mid", true⟩, ⟨2, "far", true⟩,
    ⟨3, "farthest", true⟩]⟩

/-- The second layer cannot be written, and the last one cannot be read. -/
def fadedOutages : Outages where
  reads := fun slot => if slot = 3 then some (.timeout "farthest" (.ofNanos 1)) else none
  writes := fun slot => if slot = 1 then some (.timeout "mid" (.ofNanos 1)) else none

theorem get_decided_third : ∃ after,
    GoesAmid fadedOutages (fadedStack.get "a") fadedLayers
      [(0, .get "p:a"), (1, .get "p:a"), (2, .get "p:a"),
        (0, .set "p:a" (Record.encode [2]) fadedStack.settings.defaultTtl),
        (1, .set "p:a" (Record.encode [2]) fadedStack.settings.defaultTtl)] (.ok (.hit [2])) after ∧
    (∃ item, after.item? 0 "p:a" fadedLayers.now = some item ∧ item.payload = Record.encode [2] ∧
      item.Ends fadedLayers.now fadedStack.settings.defaultTtl) ∧
    after.item? 1 "p:a" fadedLayers.now = none := by
  have hreading : fadedLayers.reading fadedOutages (fadedStack.settings.keyPrefix ++ "a") ⟨2, "far", true⟩ =
      .value (Record.encode [2]) [2] := rfl
  have hdecided := (get_decided fadedStack fadedOutages fadedLayers "a").2
    [⟨0, "near", true⟩, ⟨1, "mid", true⟩] ⟨2, "far", true⟩ [⟨3, "farthest", true⟩] rfl
    (List.forall_mem_cons.mpr ⟨rfl, List.forall_mem_singleton.mpr rfl⟩)
  simp only [hreading] at hdecided
  obtain ⟨after, hgoes, hsupplies, -⟩ := hdecided
  refine ⟨after, hgoes, hsupplies.taken List.mem_cons_self rfl, ?_⟩
  rw [hsupplies.kept (Nat.le_refl _) (by decide)]
  decide +kernel

end StackedCache
