import StackedCache.Proofs.Lookups

/-!
# Copies among calls that fail

Any call on a layer may fail, and then it has no effect. A value belongs to the
first layer that has one, and what is there for it is due in the layers above.
How much of that has been copied depends on the writes that fail.
-/

namespace StackedCache

open Simulation CacheProc Storage

/-- The calls on layers that fail, with the errors that they answer. -/
structure Faults where
  error? : Nat → LayerOp → Option CacheError := fun _ _ => none
  /-- What a layer tells of the time left to an item, which it need not know. -/
  remaining : Nat → Option Duration → Option Duration := fun _ remaining => remaining

namespace Faults

def answer (faults : Faults) : (r : CacheRequest ScriptedLoader) → Scene → r.Reply × Scene
  | .layer slot op, scene =>
    match faults.error? slot op with
    | some e => (.error e, scene)
    | none =>
      let (reply, after) := scene.answer (.layer slot op)
      (Outages.retold { remaining := faults.remaining } slot op reply, after)
  | r, scene => scene.answer r

def first? (faults : Faults) (calls : List (Nat × LayerOp)) : Option CacheError :=
  calls.findSome? fun call => faults.error? call.1 call.2

def Spares (faults : Faults) (slot : Nat) : Prop := ∀ op, faults.error? slot op = none

end Faults

def CacheRequest.queries {Loader : Type} : CacheRequest Loader → List (Nat × LayerOp)
  | .layer slot (.get key) => [(slot, .get key)]
  | .layer slot (.mget keys) => [(slot, .mget keys)]
  | _ => []

abbrev Consults {α : Type} (faults : Faults) (p : CacheProc ScriptedLoader α) (scene : Scene)
    (queries : List (Nat × LayerOp)) (a : α) (after : Scene) : Prop :=
  p.Goes faults.answer (fun e : CacheExchange => e.1.queries) scene queries a after

/-- How a layer is asked for some keys. It is not asked for none. -/
def Tier.queries (tier : Tier) (keys : List String) : List (Nat × LayerOp) :=
  if keys = [] then []
  else if tier.batched then [(tier.slot, .mget keys)]
  else keys.map fun key => (tier.slot, .get key)

-- ---------------------------------------------------------------------------
-- Values in layers
-- ---------------------------------------------------------------------------

def Reading.value? : Reading → Option (Bytes × Bytes)
  | Reading.value payload content => some (payload, content)
  | _ => none

def Scene.value? (scene : Scene) (slot : Nat) (key : String) : Option (Bytes × Bytes) :=
  (Reading.ofReply (.ok (scene.shown slot key))).value?

def Scene.origin? (scene : Scene) (key : String) : List Nat → Option (List Nat × Bytes × Bytes)
  | [] => none
  | slot :: below =>
    match scene.value? slot key with
    | some found => some ([], found)
    | none => (scene.origin? key below).map fun (upper, found) => (slot :: upper, found)

/-- One of some slots has a value, and none of the slots above it has one. -/
def Scene.Origin (scene : Scene) (key : String) (slots upper : List Nat) (payload value : Bytes) :
    Prop :=
  ∃ slot lower, slots = upper ++ slot :: lower ∧ (∀ s ∈ upper, scene.value? s key = none) ∧
    scene.value? slot key = some (payload, value)

section
variable {scene : Scene} {key : String} {slots upper : List Nat} {payload value : Bytes}

theorem Scene.origin_cons {slot : Nat} :
    scene.Origin key (slot :: slots) upper payload value ↔
      upper = [] ∧ scene.value? slot key = some (payload, value) ∨
      ∃ rest, upper = slot :: rest ∧ scene.value? slot key = none ∧
        scene.Origin key slots rest payload value := by
  unfold Scene.Origin
  constructor
  · rintro ⟨s, lower, hslots, hnone, hvalue⟩
    cases upper with
    | nil =>
      obtain ⟨rfl, rfl⟩ := List.cons.inj hslots
      exact .inl ⟨rfl, hvalue⟩
    | cons s' rest =>
      obtain ⟨rfl, rfl⟩ := List.cons.inj hslots
      obtain ⟨hfirst, hrest⟩ := List.forall_mem_cons.mp hnone
      exact .inr ⟨rest, rfl, hfirst, s, lower, rfl, hrest, hvalue⟩
  · rintro (⟨rfl, hvalue⟩ | ⟨rest, rfl, hfirst, s, lower, rfl, hrest, hvalue⟩)
    · exact ⟨slot, slots, rfl, List.forall_mem_nil _, hvalue⟩
    · exact ⟨s, lower, rfl, List.forall_mem_cons.mpr ⟨hfirst, hrest⟩, hvalue⟩

theorem Scene.origin?_eq_some_iff :
    scene.origin? key slots = some (upper, payload, value) ↔
      scene.Origin key slots upper payload value := by
  induction slots generalizing upper with
  | nil => simp [Scene.origin?, Scene.Origin]
  | cons slot slots ih =>
    rw [origin_cons, Scene.origin?]
    cases hvalue : scene.value? slot key with
    | some found => simp [eq_comm]
    | none => simp [← ih, eq_comm, and_comm]

theorem Scene.origin?_append (scene : Scene) (key : String) (above : List Nat) (slot : Nat) :
    scene.origin? key (above ++ [slot]) =
      (scene.origin? key above).or ((scene.value? slot key).map fun found => (above, found)) := by
  induction above with
  | nil => cases hvalue : scene.value? slot key <;> simp [Scene.origin?, hvalue]
  | cons s above ih =>
    rw [List.cons_append, Scene.origin?, Scene.origin?, ih]
    cases scene.value? s key with
    | some found => rfl
    | none => cases scene.origin? key above <;> cases scene.value? slot key <;> rfl

end

-- ---------------------------------------------------------------------------
-- Copies
-- ---------------------------------------------------------------------------

/-- What it comes to at a home that a payload is due in some slots: the payload is put there if a slot
at that home is spared, and nothing else ever is. -/
structure Faults.Copying (faults : Faults) (homeOf : Nat → Nat ⊕ Nat) (ttl : Duration)
    (due : Option (List Nat × Bytes)) (home : Nat ⊕ Nat) (change : Change) : Prop where
  only : change = .kept ∨ ∃ slots payload, due = some (slots, payload) ∧
    (∃ slot ∈ slots, homeOf slot = home) ∧ change = .put payload ttl
  made {slots : List Nat} {payload : Bytes} {slot : Nat} (hdue : due = some (slots, payload))
    (hslot : slot ∈ slots) (hhome : homeOf slot = home) (hspares : faults.Spares slot) :
    change = .put payload ttl

/-- From one scene to another the payloads that are due have been copied, as far as layers did not
fail. -/
def Scene.Copies (before : Scene) (faults : Faults) (ttl : Duration)
    (dues : String → Option (List Nat × Bytes)) (after : Scene) : Prop :=
  ∃ changes, before.Alters changes after ∧
    ∀ home key, faults.Copying before.storage.home ttl (dues key) home (changes home key)

section
variable {faults : Faults} {homeOf : Nat → Nat ⊕ Nat} {ttl : Duration} {home : Nat ⊕ Nat}
  {due : Option (List Nat × Bytes)} {slot : Nat} {slots slots' : List Nat} {payload : Bytes}
  {change change' : Change}

namespace Faults.Copying

theorem nothing : faults.Copying homeOf ttl none home .kept := ⟨.inl rfl, by simp⟩

theorem kept (h : faults.Copying homeOf ttl none home change) : change = .kept := by
  rcases h.only with hkept | ⟨_, _, hdue, -⟩
  · exact hkept
  · cases hdue

theorem after_nothing (h : faults.Copying homeOf ttl none home change)
    (h' : faults.Copying homeOf ttl due home change') :
    faults.Copying homeOf ttl due home (change.andThen change') := by
  rw [h.kept]
  cases change' <;> exact h'

theorem before_nothing (h : faults.Copying homeOf ttl due home change)
    (h' : faults.Copying homeOf ttl none home change') :
    faults.Copying homeOf ttl due home (change.andThen change') := by
  rw [h'.kept]
  exact h

theorem append (h : faults.Copying homeOf ttl (some (slots, payload)) home change)
    (h' : faults.Copying homeOf ttl (some (slots', payload)) home change') :
    faults.Copying homeOf ttl (some (slots ++ slots', payload)) home (change.andThen change') := by
  rcases h'.only with rfl | ⟨_, _, hdue, ⟨slot, hslot, hhome⟩, rfl⟩
  · refine ⟨?_, ?_⟩
    · rcases h.only with rfl | ⟨_, _, hdue, ⟨slot, hslot, hhome⟩, rfl⟩
      · exact .inl rfl
      · cases hdue
        exact .inr ⟨_, _, rfl, ⟨slot, List.mem_append_left _ hslot, hhome⟩, rfl⟩
    · rintro _ _ slot ⟨⟩ hslot hhome hspares
      rcases List.mem_append.mp hslot with hslot | hslot
      · exact h.made rfl hslot hhome hspares
      · cases h'.made rfl hslot hhome hspares
  · cases hdue
    refine ⟨.inr ⟨_, _, rfl, ⟨slot, List.mem_append_right _ hslot, hhome⟩, rfl⟩, ?_⟩
    rintro _ _ _ ⟨⟩ - - -
    rfl

theorem written (faults : Faults) (homeOf : Nat → Nat ⊕ Nat) (ttl : Duration) (home : Nat ⊕ Nat)
    (slot : Nat) (payload? : Option Bytes) :
    faults.Copying homeOf ttl (payload?.map ([slot], ·)) home
      (if homeOf slot = home then
        match payload? with
        | some payload => .put payload ttl
        | none => .kept
      else .kept) := by
  cases payload? with
  | none => exact (ite_self Change.kept).symm ▸ nothing
  | some payload =>
    refine ⟨?_, ?_⟩
    · by_cases hhome : homeOf slot = home
      · exact .inr ⟨_, _, rfl, ⟨slot, List.mem_singleton_self _, hhome⟩, if_pos hhome⟩
      · exact .inl (if_neg hhome)
    · rintro _ _ s ⟨⟩ hslot hhome -
      exact if_pos (List.mem_singleton.mp hslot ▸ hhome)

theorem refused (h : ¬faults.Spares slot) (payload? : Option Bytes) :
    faults.Copying homeOf ttl (payload?.map ([slot], ·)) home .kept := by
  refine ⟨.inl rfl, fun {slots payload s} hdue hslot _ hspares => absurd hspares ?_⟩
  obtain ⟨_, -, hpair⟩ := Option.map_eq_some_iff.mp hdue
  cases hpair
  exact List.mem_singleton.mp hslot ▸ h

theorem unique (hspares : ∀ slot, faults.Spares slot) (h : faults.Copying homeOf ttl due home change)
    (h' : faults.Copying homeOf ttl due home change') : change = change' := by
  rcases h.only with rfl | ⟨_, _, hdue, ⟨slot, hslot, hhome⟩, rfl⟩
  · rcases h'.only with rfl | ⟨_, _, hdue, ⟨slot, hslot, hhome⟩, rfl⟩
    · rfl
    · exact h.made hdue hslot hhome (hspares slot)
  · exact (h'.made hdue hslot hhome (hspares slot)).symm

end Faults.Copying

end

section
variable {faults : Faults} {ttl : Duration} {before mid after after' : Scene}
  {dues dues' dues'' : String → Option (List Nat × Bytes)}

namespace Scene.Copies

theorem refl : before.Copies faults ttl (fun _ => none) before :=
  ⟨_, .refl, fun _ _ => .nothing⟩

theorem of_alters (h : before.Alters (fun _ _ => .kept) after) :
    before.Copies faults ttl (fun _ => none) after :=
  ⟨_, h, fun _ _ => .nothing⟩

theorem home_eq (h : before.Copies faults ttl dues after) :
    after.storage.home = before.storage.home :=
  have ⟨_, halters, _⟩ := h
  funext halters.home_eq

theorem trans (h : before.Copies faults ttl dues mid) (h' : mid.Copies faults ttl dues' after)
    (hjoin : ∀ home key change change',
      faults.Copying before.storage.home ttl (dues key) home change →
      faults.Copying before.storage.home ttl (dues' key) home change' →
      faults.Copying before.storage.home ttl (dues'' key) home (change.andThen change')) :
    before.Copies faults ttl dues'' after := by
  have hhome := h.home_eq
  obtain ⟨changes, halters, hcopying⟩ := h
  obtain ⟨changes', halters', hcopying'⟩ := h'
  refine ⟨_, halters.trans halters', fun home key => hjoin home key _ _ (hcopying home key) ?_⟩
  rw [← hhome]
  exact hcopying' home key

theorem following (h : mid.Copies faults ttl dues after) (hkept : before.Alters (fun _ _ => .kept) mid) :
    before.Copies faults ttl dues after :=
  (of_alters hkept).trans h fun _ _ _ _ hfirst hsecond => hfirst.after_nothing hsecond

theorem then_kept (h : before.Copies faults ttl dues mid) (hkept : mid.Alters (fun _ _ => .kept) after) :
    before.Copies faults ttl dues after :=
  h.trans (of_alters hkept) fun _ _ _ _ hfirst hsecond => hfirst.before_nothing hsecond

theorem shown_eq (h : before.Copies faults ttl dues after) {key : String} (hnone : dues key = none)
    (slot : Nat) : after.shown slot key = before.shown slot key := by
  obtain ⟨changes, halters, hcopying⟩ := h
  exact halters.shown_kept (hnone ▸ hcopying _ key).kept

/-- Without failures the same is live afterwards, in whichever way the copies were made. -/
theorem item?_eq (hspares : ∀ slot, faults.Spares slot) (h : before.Copies faults ttl dues after)
    (h' : before.Copies faults ttl dues after') {slot : Nat} {key : String} {t : Instant}
    (ht : before.now ≤ t) : after.item? slot key t = after'.item? slot key t := by
  obtain ⟨changes, halters, hcopying⟩ := h
  obtain ⟨changes', halters', hcopying'⟩ := h'
  rw [halters.item?_eq ht, halters'.item?_eq ht,
    (hcopying (before.storage.home slot) key).unique hspares (hcopying' _ key)]

end Scene.Copies

end

-- ---------------------------------------------------------------------------
-- Single calls
-- ---------------------------------------------------------------------------

section
variable {β : Type} {faults : Faults} {scene after : Scene} {queries : List (Nat × LayerOp)}
  {f : Unit → CacheProc ScriptedLoader β} {b : β}

theorem Consults.notice (n : Notice) (hf : Consults faults (f ()) scene queries b after) :
    Consults faults (CacheProc.notice n >>= f) scene queries b after :=
  Proc.Goes.unseen ⟨rfl, rfl⟩ hf

theorem Consults.count (c : Count) (hf : Consults faults (f ()) scene queries b after) :
    Consults faults (CacheProc.count c >>= f) scene queries b after :=
  Proc.Goes.unseen ⟨rfl, rfl⟩ hf

variable {slot : Nat} {op : LayerOp}

theorem consults_fails {e : CacheError} (h : faults.error? slot op = some e) (scene : Scene) :
    Consults faults (ask (.layer slot op)) scene
      (CacheRequest.layer slot op : CacheRequest ScriptedLoader).queries (.error e) scene := by
  refine ⟨List.append_nil _, ?_⟩
  simp only [ask, Proc.request, Proc.run, Faults.answer, h]

theorem consults_spared (h : faults.error? slot op = none) (scene : Scene) :
    ∃ after, Consults faults (ask (.layer slot op)) scene
        (CacheRequest.layer slot op : CacheRequest ScriptedLoader).queries
        (Outages.retold { remaining := faults.remaining } slot op (scene.storage.perform scene.now slot op).1)
        after ∧
      scene.Alters (fun home key => if scene.storage.home slot = home then op.change key else .kept)
        after := by
  refine ⟨_, ⟨List.append_nil _, ?_⟩, alters_perform scene slot op⟩
  simp only [ask, Proc.request, Proc.run, Faults.answer, h]
  rfl

theorem consults_write (faults : Faults) (scene : Scene) (slot : Nat) (op : LayerOp) {ttl : Duration}
    (due : String → Option Bytes)
    (hqueries : (CacheRequest.layer slot op : CacheRequest ScriptedLoader).queries = [])
    (hchange : ∀ key, op.change key =
      match due key with
      | some payload => .put payload ttl
      | none => .kept) :
    ∃ reply after, Consults faults (ask (.layer slot op)) scene [] reply after ∧
      scene.Copies faults ttl (fun key => (due key).map fun payload => ([slot], payload)) after := by
  cases herror : faults.error? slot op with
  | some e =>
    have hrefused : ¬faults.Spares slot := fun hspares => by simp [hspares op] at herror
    exact ⟨.error e, scene, hqueries ▸ consults_fails herror scene, _, .refl,
      fun _ _ => .refused hrefused _⟩
  | none =>
    obtain ⟨after, hgoes, halters⟩ := consults_spared herror scene
    refine ⟨_, after, hqueries ▸ hgoes, _, halters, fun home key => ?_⟩
    rw [hchange]
    exact .written ..

end

end StackedCache
