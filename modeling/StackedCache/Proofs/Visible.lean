import StackedCache.Memory
import StackedCache.Network
import StackedCache.Simulation.Script

/-!
# What is visible under a key

An item is visible under its key until its deadline. Lookups and sweeps may
remove items that have expired, which nobody can see from then on; writes and
deletions change what is visible under their own keys only.
-/

namespace StackedCache

open Simulation

def Table.visible? (items : Table Item) (key : String) (t : Instant) : Option Bytes :=
  (items.liveItem? key t).map Item.payload

-- A clock shows instants below the horizon only.

/-- From an instant on both tables show the same. -/
def SameFrom (now : Instant) (old new : Table Item) : Prop :=
  ∀ key t, now ≤ t → t < Instant.horizon → new.visible? key t = old.visible? key t

/-- From an instant on a key shows something else, and the other keys what they did. -/
def ChangedFrom (now : Instant) (key : String) (shown : Instant → Option Bytes)
    (old new : Table Item) : Prop :=
  ∀ k t, now ≤ t → t < Instant.horizon → new.visible? k t = if key = k then shown t else old.visible? k t

/-- What is seen of a payload that is written with a time to live. -/
def shownFor (payload : Bytes) (ttl : Duration) (now t : Instant) : Option Bytes :=
  if ttl.isZero ∨ t < now + ttl.nanos then some payload else none

def WrittenFrom (now : Instant) (ttl : Duration) (rows : List (String × Bytes))
    (old new : Table Item) : Prop :=
  ∀ k, (∀ t, now ≤ t → t < Instant.horizon → new.visible? k t = old.visible? k t) ∨
    ∃ payload, (k, payload) ∈ rows ∧
      ∀ t, now ≤ t → t < Instant.horizon → new.visible? k t = shownFor payload ttl now t

section
variable {now t : Instant} {key k : String} {old mid new : Table Item}
  {shown : Instant → Option Bytes}

theorem SameFrom.refl : SameFrom now old old :=
  fun _ _ _ _ => rfl

theorem SameFrom.trans (h : SameFrom now old mid) (h' : SameFrom now mid new) :
    SameFrom now old new :=
  fun k t ht hlt => (h' k t ht hlt).trans (h k t ht hlt)

theorem ChangedFrom.then_same (h : ChangedFrom now key shown old mid) (h' : SameFrom now mid new) :
    ChangedFrom now key shown old new :=
  fun k t ht hlt => (h' k t ht hlt).trans (h k t ht hlt)

theorem WrittenFrom.then_same {ttl : Duration} {rows : List (String × Bytes)}
    (h : WrittenFrom now ttl rows old mid) (h' : SameFrom now mid new) :
    WrittenFrom now ttl rows old new := by
  intro k
  rcases h k with hsame | ⟨payload, hmem, hnew⟩
  · exact .inl fun t ht hlt => (h' k t ht hlt).trans (hsame t ht hlt)
  · exact .inr ⟨payload, hmem, fun t ht hlt => (h' k t ht hlt).trans (hnew t ht hlt)⟩

/-- One write after the other leaves each key with the last payload that was written to it. -/
theorem writtenFrom_foldl {σ : Type} {items : σ → Table Item} {write : σ → String × Bytes → σ}
    {ttl : Duration}
    (h : ∀ s row, ChangedFrom now row.1 (shownFor row.2 ttl now) (items s) (items (write s row)))
    (rows : List (String × Bytes)) (s : σ) :
    WrittenFrom now ttl rows (items s) (items (rows.foldl write s)) := by
  induction rows generalizing s with
  | nil => exact fun k => .inl fun _ _ _ => rfl
  | cons row rows ih =>
    intro k
    rcases ih (write s row) k with hsame | ⟨payload, hmem, hnew⟩
    · have hfirst := h s row k
      by_cases hk : row.1 = k
      · subst hk
        simp only [if_pos] at hfirst
        exact .inr ⟨row.2, List.mem_cons_self, fun t ht hlt => (hsame t ht hlt).trans (hfirst t ht hlt)⟩
      · simp only [if_neg hk] at hfirst
        exact .inl fun t ht hlt => (hsame t ht hlt).trans (hfirst t ht hlt)
    · exact .inr ⟨payload, List.mem_cons_of_mem _ hmem, hnew⟩

theorem isExpired_later {item : Item} (h : item.isExpired now) (ht : now ≤ t) :
    item.isExpired t := by
  unfold Item.isExpired at h ⊢
  cases hd : item.deadline with
  | none => simp [hd] at h
  | some deadline =>
    simp only [hd, decide_eq_true_eq] at h ⊢
    exact Nat.le_trans h ht

theorem visible_eq (items : Table Item) (key : String) (t : Instant) :
    items.visible? key t = (items.get? key).bind fun item =>
      if item.isExpired t then none else some item.payload := by
  unfold Table.visible? Table.liveItem? Item.isLive
  cases items.get? key with
  | none => rfl
  | some item => cases h : item.isExpired t <;> simp [Option.filter, h]

theorem visible_earlier {items : Table Item} {payload : Bytes} (h : items.visible? key t = some payload)
    (ht : now ≤ t) : items.visible? key now = some payload := by
  rw [visible_eq] at h ⊢
  cases hitem : items.get? key with
  | none => simp [hitem] at h
  | some item =>
    cases hx : item.isExpired now with
    | true => simp [hitem, isExpired_later hx ht] at h
    | false =>
      simp only [hitem, Option.bind_some] at h
      split at h
      · cases h
      · simpa [hx] using h

theorem shownFor_now (payload : Bytes) (ttl : Duration) (now : Instant) :
    shownFor payload ttl now now = some payload := by
  unfold shownFor
  cases hz : ttl.isZero with
  | true => simp
  | false =>
    simp only [Duration.isZero, beq_eq_false_iff_ne, ne_eq] at hz
    exact if_pos (.inr (Nat.lt_add_of_pos_right (Nat.pos_of_ne_zero hz)))

theorem visible_insert (items : Table Item) (key k : String) (item : Item) (t : Instant) :
    (items.insert key item).visible? k t =
      if key = k then (if item.isExpired t then none else some item.payload)
      else items.visible? k t := by
  simp only [visible_eq, Table.get?_insert]
  split <;> rfl

theorem visible_erase (items : Table Item) (key k : String) (t : Instant) :
    (items.erase key).visible? k t = if key = k then none else items.visible? k t := by
  simp only [visible_eq, Table.get?_erase, eq_comm (a := k)]
  split <;> rfl

theorem sameFrom_live (items : Table Item) (now : Instant) : SameFrom now items (items.live now) := by
  intro key t ht _
  simp only [visible_eq, Table.live, Table.get?_filter]
  cases items.get? key with
  | none => rfl
  | some item =>
    cases hx : item.isExpired now with
    | false => simp [Option.filter, Item.isLive, hx]
    | true => simp [Option.filter, Item.isLive, hx, isExpired_later hx ht]

theorem sameFrom_erase {items : Table Item} {item : Item} (hitem : items.get? key = some item)
    (hx : item.isExpired now) : SameFrom now items (items.erase key) := by
  intro k t ht _
  rw [visible_erase]
  split
  · rename_i hk
    subst hk
    simp [visible_eq, hitem, isExpired_later hx ht]
  · rfl

/-- A memory layer keeps an item without a deadline if the clock cannot show the deadline. -/
theorem visible_item {payload : Bytes} {ttl : Duration} (h : t < Instant.horizon) :
    (if (Memory.item payload ttl now).isExpired t then none else some payload) =
      shownFor payload ttl now t := by
  unfold shownFor Memory.item Item.isExpired Instant.after?
  cases hz : ttl.isZero with
  | true => simp
  | false =>
    by_cases hh : now + ttl.nanos < Instant.horizon
    · by_cases hd : now + ttl.nanos ≤ t
      · simp [hh, hd, Nat.not_lt.mpr hd]
      · simp [hh, hd, Nat.lt_of_not_le hd]
    · have hd : t < now + ttl.nanos := Nat.lt_of_lt_of_le h (Nat.le_of_not_lt hh)
      simp [hh, hd]

theorem visible_lasting {payload : Bytes} {ttl : Duration} :
    (if (Item.lasting payload ttl now).isExpired t then none else some payload) =
      shownFor payload ttl now t := by
  unfold shownFor Item.lasting Item.isExpired
  cases hz : ttl.isZero with
  | true => simp
  | false =>
    by_cases hd : now + ttl.nanos ≤ t
    · simp [hd, Nat.not_lt.mpr hd]
    · simp [hd, Nat.lt_of_not_le hd]

theorem changedFrom_item {items : Table Item} {payload : Bytes} {ttl : Duration} :
    ChangedFrom now key (shownFor payload ttl now) items
      (items.insert key (Memory.item payload ttl now)) := by
  intro k t _ hlt
  rw [visible_insert, ← visible_item hlt]
  rfl

theorem changedFrom_lasting {items : Table Item} {payload : Bytes} {ttl : Duration} :
    ChangedFrom now key (shownFor payload ttl now) items
      (items.insert key (.lasting payload ttl now)) := by
  intro k t _ _
  rw [visible_insert, ← visible_lasting]
  rfl

theorem changedFrom_erase {items : Table Item} :
    ChangedFrom now key (fun _ => none) items (items.erase key) :=
  fun _ _ _ _ => visible_erase ..

end

-- ---------------------------------------------------------------------------
-- Memory layers
-- ---------------------------------------------------------------------------

namespace Memory

theorem lookup_spec (memory : Memory) (now : Instant) (key : String) :
    (memory.lookup now key).1.map Entry.payload = memory.entries.visible? key now ∧
      SameFrom now memory.entries (memory.lookup now key).2.entries := by
  unfold lookup
  rw [visible_eq]
  cases hitem : memory.entries.get? key with
  | none => exact ⟨rfl, SameFrom.refl⟩
  | some item =>
    cases hx : item.isExpired now with
    | false =>
      simp only [hx, Bool.false_eq_true, ↓reduceIte, Option.bind_some]
      exact ⟨rfl, SameFrom.refl⟩
    | true =>
      simp only [hx, ↓reduceIte, Option.bind_some]
      exact ⟨rfl, sameFrom_erase hitem hx⟩

theorem sweep_same (memory : Memory) (now : Instant) :
    SameFrom now memory.entries (memory.sweep now).2.entries :=
  sameFrom_live memory.entries now

theorem enforceLimit_same (memory : Memory) (now : Instant) :
    SameFrom now memory.entries (memory.enforceLimit now).2.entries := by
  unfold enforceLimit
  split
  · exact memory.sweep_same now
  · exact SameFrom.refl

theorem lookupAll_spec (memory : Memory) (now : Instant) (keys : List String) :
    (now < Instant.horizon → ∀ key, (memory.lookupAll now keys).1.hits.get? key =
      if key ∈ keys then memory.entries.visible? key now else none) ∧
      SameFrom now memory.entries (memory.lookupAll now keys).2.entries := by
  induction keys generalizing memory with
  | nil => exact ⟨fun _ _ => rfl, SameFrom.refl⟩
  | cons k keys ih =>
    obtain ⟨hfound, hsame⟩ := lookup_spec memory now k
    obtain ⟨hhits, hrest⟩ := ih (memory.lookup now k).2
    simp only [lookupAll]
    cases hf : (memory.lookup now k).1 with
    | none =>
      refine ⟨fun hnow key => ?_, hsame.trans hrest⟩
      have hbefore := hhits hnow key
      rw [hsame key now (Nat.le_refl _) hnow] at hbefore
      rw [hf] at hfound
      simp only [hbefore, List.mem_cons]
      by_cases hk : key = k
      · simp [hk, ← hfound]
      · simp [hk]
    | some entry =>
      refine ⟨fun hnow key => ?_, hsame.trans hrest⟩
      have hbefore := hhits hnow key
      rw [hsame key now (Nat.le_refl _) hnow] at hbefore
      rw [hf] at hfound
      simp only [Table.get?_insert, hbefore, List.mem_cons]
      by_cases hk : key = k
      · simp [hk, ← hfound]
      · simp [hk, Ne.symm hk]

end Memory

end StackedCache
