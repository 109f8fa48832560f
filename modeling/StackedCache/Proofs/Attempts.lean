import Mathlib.Data.List.Induction
import StackedCache.Proofs.Copies

/-!
# Attempts on layers

Some calls are made on layers one after the other, and some of them fail. What
is left of them depends on those that do not fail. If they agree on every key,
their order makes no difference, nor does it matter that one is made again.
-/

namespace StackedCache

open Simulation CacheProc Storage

namespace Faults

def result (faults : Faults) (calls : List (Nat × LayerOp)) : Except CacheError Unit :=
  match faults.first? calls with
  | some e => .error e
  | none => .ok ()

def leave (faults : Faults) (calls : List (Nat × LayerOp)) (scene : Scene) : Scene :=
  calls.foldl (fun scene call => (faults.answer (.layer call.1 call.2) scene).2) scene

def Reaches (faults : Faults) (homeOf : Nat → Nat ⊕ Nat) (home : Nat ⊕ Nat) (call : Nat × LayerOp) : Prop :=
  faults.error? call.1 call.2 = none ∧ homeOf call.1 = home

instance (faults : Faults) (homeOf : Nat → Nat ⊕ Nat) (home : Nat ⊕ Nat) (call : Nat × LayerOp) :
    Decidable (faults.Reaches homeOf home call) :=
  inferInstanceAs (Decidable (_ ∧ _))

def changes (faults : Faults) (homeOf : Nat → Nat ⊕ Nat) (calls : List (Nat × LayerOp)) (home : Nat ⊕ Nat)
    (key : String) : Change :=
  calls.foldl
    (fun change call =>
      change.andThen (if faults.Reaches homeOf home call then call.2.change key else .kept))
    .kept

end Faults

/-- No two of the calls make different changes under a key. -/
def Consistent (calls : List (Nat × LayerOp)) : Prop :=
  ∀ call ∈ calls, ∀ call' ∈ calls, ∀ key, call.2.change key ≠ .kept → call'.2.change key ≠ .kept →
    call.2.change key = call'.2.change key

/-- Between two scenes some calls on layers have been made, of which some have failed. What has been put
somewhere is there, with its time to live; and nothing else has changed. -/
structure Scene.Obeys (before : Scene) (faults : Faults) (calls : List (Nat × LayerOp)) (after : Scene) :
    Prop where
  rest : after = { before with storage := after.storage, draws := after.draws }
  written {slot : Nat} {op : LayerOp} {key : String} {payload : Bytes} {ttl : Duration}
    (hcall : (slot, op) ∈ calls) (hspared : faults.error? slot op = none)
    (hput : op.change key = .put payload ttl) :
    ∃ item, after.item? slot key before.now = some item ∧ item.payload = payload ∧ item.Ends before.now ttl
  kept {slot : Nat} {key : String} {t : Instant} (ht : before.now ≤ t)
    (h : ∀ call ∈ calls, faults.error? call.1 call.2 = none →
      before.storage.home call.1 = before.storage.home slot → call.2.change key = .kept) :
    after.item? slot key t = before.item? slot key t

section
variable {faults : Faults} {scene : Scene} {calls calls' : List (Nat × LayerOp)} {call : Nat × LayerOp}
  {homeOf : Nat → Nat ⊕ Nat} {home : Nat ⊕ Nat} {key : String}

-- ---------------------------------------------------------------------------
-- Results
-- ---------------------------------------------------------------------------

theorem Faults.result_append (faults : Faults) (calls calls' : List (Nat × LayerOp)) :
    faults.result (calls ++ calls') = (faults.result calls).bind fun _ => faults.result calls' := by
  unfold result first?
  rw [List.findSome?_append]
  cases List.findSome? (fun call => faults.error? call.1 call.2) calls <;> rfl

-- ---------------------------------------------------------------------------
-- Changes
-- ---------------------------------------------------------------------------

theorem Faults.leave_append (faults : Faults) (calls calls' : List (Nat × LayerOp)) (scene : Scene) :
    faults.leave (calls ++ calls') scene = faults.leave calls' (faults.leave calls scene) :=
  List.foldl_append

theorem Faults.leave_concat (faults : Faults) (calls : List (Nat × LayerOp)) (call : Nat × LayerOp)
    (scene : Scene) : faults.leave (calls ++ [call]) scene =
      (faults.answer (.layer call.1 call.2) (faults.leave calls scene)).2 :=
  faults.leave_append calls [call] scene

theorem Faults.changes_concat (faults : Faults) (calls : List (Nat × LayerOp)) (call : Nat × LayerOp) :
    faults.changes homeOf (calls ++ [call]) home key = (faults.changes homeOf calls home key).andThen
      (if faults.Reaches homeOf home call then call.2.change key else .kept) := by
  simp [changes, List.foldl_append]

theorem alters_answer (faults : Faults) (scene : Scene) (call : Nat × LayerOp) :
    scene.Alters
      (fun home key => if faults.Reaches scene.storage.home home call then call.2.change key else .kept)
      (faults.answer (.layer call.1 call.2) scene).2 := by
  obtain ⟨slot, op⟩ := call
  cases herror : faults.error? slot op with
  | some e =>
    have hsame : (faults.answer (.layer slot op) scene).2 = scene := by simp only [Faults.answer, herror]
    rw [hsame]
    exact Scene.Alters.refl.congr fun home key => by simp [Faults.Reaches, herror]
  | none =>
    have hperformed : (faults.answer (.layer slot op) scene).2 =
        { scene with storage := (scene.storage.perform scene.now slot op).2 } := by
      simp only [Faults.answer, herror]
      rfl
    rw [hperformed]
    exact (alters_perform scene slot op).congr fun home key => by simp [Faults.Reaches, herror]

theorem alters_leave (faults : Faults) (scene : Scene) (calls : List (Nat × LayerOp)) :
    scene.Alters (faults.changes scene.storage.home calls) (faults.leave calls scene) := by
  induction calls using List.reverseRecOn with
  | nil => exact .refl
  | append_singleton calls call ih =>
    have hlast := alters_answer faults (faults.leave calls scene) call
    rw [funext ih.home_eq] at hlast
    rw [faults.leave_concat]
    exact (ih.trans hlast).congr fun home key => (faults.changes_concat calls call).symm

theorem Change.andThen_of_ne {second : Change} (first : Change) (h : second ≠ .kept) :
    first.andThen second = second := by
  cases second with
  | kept => exact absurd rfl h
  | removed => rfl
  | put payload ttl => rfl

theorem Faults.changes_kept (h : ∀ call ∈ calls, faults.Reaches homeOf home call → call.2.change key = .kept) :
    faults.changes homeOf calls home key = .kept := by
  induction calls using List.reverseRecOn with
  | nil => rfl
  | append_singleton calls call ih =>
    obtain ⟨hbefore, hlast⟩ := List.forall_mem_append.mp h
    rw [changes_concat, ih hbefore]
    split
    · rename_i hreaches
      rw [hlast call List.mem_cons_self hreaches]
      rfl
    · rfl

/-- A change that is made is what all of them come to if they agree. -/
theorem Faults.changes_eq (hagree : Consistent calls) (hcall : call ∈ calls)
    (hreaches : faults.Reaches homeOf home call) (hchange : call.2.change key ≠ .kept) :
    faults.changes homeOf calls home key = call.2.change key := by
  induction calls using List.reverseRecOn with
  | nil => cases hcall
  | append_singleton calls last ih =>
    rw [changes_concat]
    by_cases hlast : faults.Reaches homeOf home last ∧ last.2.change key ≠ .kept
    · rw [if_pos hlast.1, Change.andThen_of_ne _ hlast.2]
      exact hagree last (List.mem_append_right _ List.mem_cons_self) call hcall key hlast.2 hchange
    · have hkept : (if faults.Reaches homeOf home last then last.2.change key else .kept) = .kept := by
        split
        · rename_i hreaches
          by_contra hne
          exact hlast ⟨hreaches, hne⟩
        · rfl
      rw [hkept]
      refine ih (fun c hc c' hc' => hagree c (List.mem_append_left _ hc) c' (List.mem_append_left _ hc')) ?_
      refine (List.mem_append.mp hcall).resolve_right fun hmem => hlast ?_
      rw [List.mem_singleton.mp hmem] at hreaches hchange
      exact ⟨hreaches, hchange⟩

/-- Calls that agree may be made in any order, and one of them more than once. -/
theorem Faults.changes_congr (hagree : Consistent calls) (hsame : ∀ call, call ∈ calls ↔ call ∈ calls') :
    faults.changes homeOf calls home key = faults.changes homeOf calls' home key := by
  have hagree' : Consistent calls' := fun c hc c' hc' => hagree c ((hsame c).mpr hc) c' ((hsame c').mpr hc')
  by_cases hsome : ∃ call ∈ calls, faults.Reaches homeOf home call ∧ call.2.change key ≠ .kept
  · obtain ⟨call, hcall, hreaches, hchange⟩ := hsome
    rw [changes_eq hagree hcall hreaches hchange, changes_eq hagree' ((hsame call).mp hcall) hreaches hchange]
  · have hnone (call : Nat × LayerOp) (hcall : call ∈ calls) (hreaches : faults.Reaches homeOf home call) :
        call.2.change key = .kept := by
      by_contra hne
      exact hsome ⟨call, hcall, hreaches, hne⟩
    rw [changes_kept hnone, changes_kept fun call hcall => hnone call ((hsame call).mpr hcall)]

-- ---------------------------------------------------------------------------
-- What is left
-- ---------------------------------------------------------------------------

theorem obeys_leave (faults : Faults) (scene : Scene) (hagree : Consistent calls) :
    scene.Obeys faults calls (faults.leave calls scene) := by
  have halters := alters_leave faults scene calls
  constructor
  case rest =>
    have hdraws : (faults.leave calls scene).draws = scene.draws := by rw [halters.rest]
    rw [hdraws]
    exact halters.rest
  case written =>
    intro slot op key payload ttl hcall hspared hput
    refine halters.item?_put ?_
    rw [Faults.changes_eq hagree hcall ⟨hspared, rfl⟩ (by simp [hput]), hput]
  case kept =>
    intro slot key t ht h
    exact halters.item?_kept ht (Faults.changes_kept fun call hcall hreaches => h call hcall hreaches.1 hreaches.2)

theorem leave_draws (faults : Faults) (calls : List (Nat × LayerOp)) (scene : Scene) (draws : Nat → Rat) :
    faults.leave calls { scene with draws } = { faults.leave calls scene with draws } := by
  induction calls generalizing scene with
  | nil => rfl
  | cons call calls ih =>
    have hanswer : (faults.answer (.layer call.1 call.2) { scene with draws }).2 =
        { (faults.answer (.layer call.1 call.2) scene).2 with draws } := by
      simp only [Faults.answer]
      split <;> rfl
    simp only [Faults.leave, List.foldl_cons] at ih ⊢
    rw [hanswer, ih]

theorem Scene.Obeys.redrawn {after : Scene} {draws : Nat → Rat}
    (h : { scene with draws }.Obeys faults calls after) : scene.Obeys faults calls after :=
  ⟨h.rest, h.written, h.kept⟩

/-- The same calls in another order leave the same live items. -/
theorem leave_item? (hagree : Consistent calls) (hsame : ∀ call, call ∈ calls ↔ call ∈ calls')
    (draws draws' : Nat → Rat) {slot : Nat} {t : Instant} (ht : scene.now ≤ t) :
    (faults.leave calls' { scene with draws := draws' }).item? slot key t =
      (faults.leave calls { scene with draws }).item? slot key t := by
  rw [(alters_leave faults { scene with draws } calls).item?_eq ht,
    (alters_leave faults { scene with draws := draws' } calls').item?_eq ht, Faults.changes_congr hagree hsame]
  rfl

theorem items_delete (storage : Storage) (now : Instant) (slot : Nat) (key : String) (slot' : Nat) :
    (storage.perform now slot (.delete key)).2.items slot' =
      if storage.home slot' = storage.home slot then (storage.items slot').erase key
      else storage.items slot' := by
  rcases perform_items storage now (fun before after => after = before.erase key) slot (.delete key)
    (fun _ => rfl) (fun _ _ => rfl) slot' with ⟨hhome, hitems⟩ | ⟨hhome, hitems⟩
  · rw [hitems, if_neg hhome]
  · rw [hitems, if_pos hhome]

theorem leave_deleted (faults : Faults) (scene : Scene) {slots : List Nat} {slot : Nat} (hslot : slot ∈ slots)
    (hspared : faults.error? slot (.delete key) = none) :
    ((faults.leave (slots.map fun slot => (slot, .delete key)) scene).storage.items slot).get? key = none := by
  induction slots using List.reverseRecOn with
  | nil => cases hslot
  | append_singleton slots last ih =>
    rw [List.map_append, List.map_singleton, faults.leave_concat]
    cases herror : faults.error? last (.delete key) with
    | some e =>
      have hother : slot ∈ slots := by
        refine (List.mem_append.mp hslot).resolve_right fun hmem => ?_
        rw [List.mem_singleton.mp hmem, herror] at hspared
        cases hspared
      simp only [Faults.answer, herror]
      exact ih hother
    | none =>
      simp only [Faults.answer, herror]
      refine (congrArg (Table.get? · key) (items_delete _ _ last key slot)).trans ?_
      split
      · exact (Table.get?_erase ..).trans (if_pos rfl)
      · rename_i hhome
        refine ih ((List.mem_append.mp hslot).resolve_right fun hmem => hhome ?_)
        rw [List.mem_singleton.mp hmem]

end

end StackedCache
