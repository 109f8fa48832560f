import StackedCache.Proofs.Concurrency.Place
import StackedCache.Proofs.Holdings
import StackedCache.Proofs.Provenance

/-!
# Layers that fail

A call on a layer may fail, and nobody knows then whether it has had its
effect, or for a batch a part of it. Time passes meanwhile, and memory layers
are swept and cleared. Still, a layer holds nothing that has not been put
there, and what it tells is what it has.
-/

namespace StackedCache

/-- The reply is the true one, although the layer need not know the time left. -/
def LayerOp.Agrees : (op : LayerOp) → op.Reply → op.Reply → Prop
  | .get _, truth, reply =>
    ∃ remaining, reply = truth.map (Option.map fun entry => { entry with remaining })
  | _, truth, reply => reply = truth

inductive LayerOp.Within : LayerOp → LayerOp → Prop
  | whole {op : LayerOp} : Within op op
  | part {few all : Table Bytes} {ttl : Duration} (h : few.rows ⊆ all.rows) :
      Within (.mset few ttl) (.mset all ttl)

namespace Concurrency

open Simulation Storage

namespace Place

def doing (place : Place) (slot : Nat) (op : LayerOp) : Place :=
  { place with storage := (place.storage.perform place.now slot op).2 }

/-- A call on a layer is answered truthfully, or fails with or without an effect. Everything else is
answered with anything. -/
def tolerates {Loader : Type} (place : Place) : (r : CacheRequest Loader) → r.Reply → Place → Prop
  | .layer slot op, reply, after =>
    op.Agrees (place.storage.perform place.now slot op).1 reply ∧ after = place.doing slot op ∨
    (∃ e, reply = .error e) ∧
      (after = place ∨ ∃ done : LayerOp, done.Within op ∧ after = place.doing slot done)
  | .join key, seat, after => seat.key = key ∧ after = place
  | _, _, after => after = place

/-- Time passes, or a memory layer is swept or cleared. -/
def strays (place after : Place) : Prop :=
  place.drifts after ∨ ∃ n, after = { place with storage := place.storage.clear n }

variable {place after : Place} {slot : Nat} {key : String} {item : Item}

theorem strays_clock (h : place.strays after) (hclock : place.now < Instant.horizon) :
    place.now ≤ after.now ∧ after.now < Instant.horizon := by
  rcases h with (⟨hle, hlater, -⟩ | ⟨n, rfl⟩) | ⟨n, rfl⟩
  · exact ⟨hle, hlater⟩
  · exact ⟨Nat.le_refl _, hclock⟩
  · exact ⟨Nat.le_refl _, hclock⟩

theorem strays_holds (h : place.strays after) (hitem : after.storage.Holds slot key item) :
    place.storage.Holds slot key item := by
  rcases h with (⟨-, -, hsame⟩ | ⟨n, rfl⟩) | ⟨n, rfl⟩
  · exact hsame ▸ hitem
  · exact sweep_holds hitem
  · exact clear_holds hitem

theorem strays_home (h : place.strays after) (slot : Nat) :
    after.storage.home slot = place.storage.home slot := by
  rcases h with (⟨-, -, hsame⟩ | ⟨n, rfl⟩) | ⟨n, rfl⟩
  · rw [hsame]
  · rfl
  · rfl

-- ---------------------------------------------------------------------------
-- What a call may have done
-- ---------------------------------------------------------------------------

section
variable {r : CacheRequest ScriptedLoader} {reply : r.Reply}

theorem tolerates_cases (h : place.tolerates r reply after) : after = place ∨
    ∃ slot op done, r = .layer slot op ∧ done.Within op ∧ after = place.doing slot done := by
  cases r with
  | layer slot op =>
    rcases h with ⟨-, hafter⟩ | ⟨-, hsame | ⟨done, hdone, hafter⟩⟩
    · exact .inr ⟨slot, op, op, rfl, .whole, hafter⟩
    · exact .inl hsame
    · exact .inr ⟨slot, op, done, rfl, hdone, hafter⟩
  | join key => exact .inl h.2
  | _ => exact .inl h

theorem tolerates_now (h : place.tolerates r reply after) : after.now = place.now := by
  rcases tolerates_cases h with rfl | ⟨_, _, _, _, _, rfl⟩ <;> rfl

theorem tolerates_home (h : place.tolerates r reply after) (slot : Nat) :
    after.storage.home slot = place.storage.home slot := by
  rcases tolerates_cases h with rfl | ⟨slot', _, done, _, _, rfl⟩
  · rfl
  · unfold home doing
    rw [perform_backing]

theorem tolerates_holds (h : place.tolerates r reply after)
    (hitem : after.storage.Holds slot key item) : place.storage.Holds slot key item ∨
    ∃ slot' op payload ttl, r = .layer slot' op ∧ place.storage.home slot = place.storage.home slot' ∧
      op.Puts key payload ttl ∧ item.Makes payload ttl place.now := by
  rcases tolerates_cases h with rfl | ⟨slot', op, done, hr, hdone, rfl⟩
  · exact .inl hitem
  · refine (perform_holds hitem).imp_right ?_
    rintro ⟨hhome, payload, ttl, hputs, hmakes⟩
    refine ⟨slot', op, payload, ttl, hr, hhome, ?_, hmakes⟩
    cases hdone with
    | whole => exact hputs
    | part hfew =>
      cases hputs with
      | mset hmem => exact .mset (hfew hmem)

/-- What a request does not touch is seen as before. -/
theorem tolerates_shown (hclock : place.now < Instant.horizon) (h : place.tolerates r reply after)
    (huntouched : ¬r.Touches key) (slot : Nat) : after.shown slot key = place.shown slot key := by
  rcases tolerates_cases h with rfl | ⟨slot', op, done, rfl, hdone, rfl⟩
  · rfl
  · have hsees {storage : Storage} (hs : storage.Sees place.now slot key
        ((place.storage.items slot).visible? key)) :
        (storage.items slot).visible? key place.now = place.shown slot key :=
      hs place.now (Nat.le_refl _) hclock
    cases done with
    | get k => exact hsees ((get_spec place.storage place.now slot' k).2 slot key)
    | mget keys => exact hsees ((mget_spec place.storage place.now hclock slot' keys).2 slot key)
    | delete k =>
      cases hdone with
      | whole =>
        rcases (delete_spec place.storage place.now slot' k).2.2 slot key with hsame | ⟨rfl, -⟩
        · exact hsees hsame
        · exact absurd rfl huntouched
    | set k payload ttl =>
      cases hdone with
      | whole =>
        rcases (set_spec place.storage place.now slot' k payload ttl).2.2 slot key with hsame | ⟨rfl, -⟩
        · exact hsees hsame
        · exact absurd rfl huntouched
    | mset items ttl =>
      rcases (mset_spec place.storage place.now slot' items ttl).2 slot key with
        hsame | ⟨payload, hmem, -⟩
      · exact hsees hsame
      · cases hdone with
        | whole => exact absurd ⟨payload, hmem⟩ huntouched
        | part hfew => exact absurd ⟨payload, hfew hmem⟩ huntouched

theorem tolerates_deleted {slot' : Nat}
    (h : place.tolerates (.layer slot (.delete key) : CacheRequest ScriptedLoader) (.ok ()) after)
    (hhome : place.storage.home slot' = place.storage.home slot) (item : Item) :
    ¬after.storage.Holds slot' key item := by
  have herased (old : Table Item) : (old.erase key).get? key = none := by simp [Table.get?_erase]
  rcases h with ⟨-, rfl⟩ | ⟨⟨e, hfails⟩, -⟩
  · intro hitem
    rcases place.storage.perform_items place.now (fun _ new => new.get? key = none) slot (.delete key)
      (fun memory => herased memory.entries) (fun _ store => herased store.items) slot' with
      ⟨hother, -⟩ | ⟨-, hnone⟩
    · exact hother hhome
    · cases hnone.symm.trans hitem
  · cases hfails

theorem tolerates_fetches (hclock : place.now < Instant.horizon) (h : place.tolerates r reply after)
    {found : Option Bytes} (hfetches : Fetches ⟨r, reply⟩ slot key found) :
    place.shown slot key = found := by
  cases hfetches with
  | get =>
    rcases h with ⟨⟨remaining, hreply⟩, -⟩ | ⟨⟨e, hreply⟩, -⟩
    · obtain ⟨⟨truth, htruth, hshown⟩, -⟩ := get_spec place.storage place.now slot key
      rw [htruth] at hreply
      cases hreply
      rw [Option.map_map]
      exact hshown.symm
    · cases hreply
  | mget hkey =>
    rcases h with ⟨hreply, -⟩ | ⟨⟨e, hreply⟩, -⟩
    · obtain ⟨⟨truth, htruth, hshown⟩, -⟩ := mget_spec place.storage place.now hclock slot _
      cases hreply.trans htruth
      exact ((hshown key).trans (if_pos hkey)).symm
    · cases hreply

end

end Place

-- ---------------------------------------------------------------------------
-- Systems
-- ---------------------------------------------------------------------------

abbrev inUnreliablePlace (Loader : Type) : Surroundings Loader where
  State := Place
  answers := Place.tolerates
  drifts := Place.strays

/-- A step in which a call on a layer may have its effect without a reply: its task may be dropped
then, or the call may fail or be done once more. -/
inductive System.LooseStep {Loader α : Type} {env : Surroundings Loader} (s : System env α) :
    Event Loader → System env α → Prop
  | step {e t} (h : System.Step s e t) : LooseStep s e t
  | effect {i stance slot op next reply state}
    (hi : s.tasks[i]? = some (.live stance (Proc.ask (.layer slot op) next)))
    (ha : env.answers s.state (.layer slot op) reply state) :
    LooseStep s (.acted i (.layer slot op) reply) { s with state }

theorem System.LooseStep.act {Loader α : Type} {env : Surroundings Loader} {s : System env α} {i : Nat}
    {stance : Stance} {r : CacheRequest Loader} {next : r.Reply → CacheProc Loader α} {state : env.State}
    (reply : r.Reply) (hi : s.tasks[i]? = some (.live stance (Proc.ask r next)))
    (hr : r.onFlight = false) (ha : env.answers s.state r reply state) :
    s.LooseStep (.acted i r reply) ({ s with state }.setTask i (.live stance (next reply))) :=
  .step (.act hi hr ha)

end Concurrency

end StackedCache
