import StackedCache.Proofs.Storage

/-!
# What layers hold

An item that a layer holds after a call was there before, or the call has put
it there. Sweeps and clearing only take items away. What is visible is held and
has not expired.
-/

namespace StackedCache

open Simulation

inductive LayerOp.Puts : LayerOp → String → Bytes → Duration → Prop
  | set {key : String} {payload : Bytes} {ttl : Duration} : Puts (.set key payload ttl) key payload ttl
  | mset {items : Table Bytes} {ttl : Duration} {key : String} {payload : Bytes}
      (h : (key, payload) ∈ items.rows) : Puts (.mset items ttl) key payload ttl

def Item.Makes (payload : Bytes) (ttl : Duration) (now : Instant) (item : Item) : Prop :=
  item = Memory.item payload ttl now ∨ item = .lasting payload ttl now

/-- Each item of the new table is in the old one, or has been put there. -/
def Grown (now : Instant) (puts : String → Bytes → Duration → Prop) (old new : Table Item) : Prop :=
  ∀ key item, new.get? key = some item → old.get? key = some item ∨
    ∃ payload ttl, puts key payload ttl ∧ item.Makes payload ttl now

section
variable {now : Instant} {key : String} {payload : Bytes} {ttl : Duration} {item : Item}
  {old mid new : Table Item} {puts : String → Bytes → Duration → Prop}

theorem Item.Makes.payload_eq (h : item.Makes payload ttl now) : item.payload = payload := by
  rcases h with rfl | rfl <;> rfl

theorem Item.Makes.deadline_eq (h : item.Makes payload ttl now) (hlasting : ttl.isZero = false)
    (hholds : now + ttl.nanos < Instant.horizon) : item.deadline = some (now + ttl.nanos) := by
  rcases h with rfl | rfl
  · simp [Memory.item, Instant.after?, hlasting, hholds]
  · simp [Item.lasting, hlasting]

theorem Grown.refl : Grown now puts old old := fun _ _ => .inl

theorem Grown.trans (h : Grown now puts old mid) (h' : Grown now puts mid new) :
    Grown now puts old new := by
  intro key item hitem
  rcases h' key item hitem with hmid | hput
  · exact h key item hmid
  · exact .inr hput

theorem grown_filter (p : String → Item → Bool) : Grown now puts old (old.filter p) := by
  intro key item hitem
  rw [Table.get?_filter] at hitem
  exact .inl (Option.filter_eq_some_iff.mp hitem).1

theorem grown_insert (hputs : puts key payload ttl) (hitem : item.Makes payload ttl now) :
    Grown now puts old (old.insert key item) := by
  intro k item' h
  rw [Table.get?_insert] at h
  split at h
  · rename_i hk
    cases h
    exact .inr ⟨payload, ttl, hk ▸ hputs, hitem⟩
  · exact .inl h

theorem grown_foldl {σ : Type} {items : σ → Table Item} {write : σ → String × Bytes → σ}
    {rows : List (String × Bytes)}
    (h : ∀ s row, row ∈ rows → Grown now puts (items s) (items (write s row))) (s : σ) :
    Grown now puts (items s) (items (rows.foldl write s)) := by
  induction rows generalizing s with
  | nil => exact .refl
  | cons row rows ih =>
    refine (h s row List.mem_cons_self).trans ?_
    exact ih (fun s row hrow => h s row (List.mem_cons_of_mem _ hrow)) (write s row)

theorem visible_held {items : Table Item} (h : items.visible? key now = some payload) :
    ∃ item, items.get? key = some item ∧ item.payload = payload ∧
      ∀ deadline, item.deadline = some deadline → now < deadline := by
  rw [visible_eq] at h
  cases hitem : items.get? key with
  | none => simp [hitem] at h
  | some item =>
    simp only [hitem, Option.bind_some] at h
    split at h
    · cases h
    · rename_i hlive
      refine ⟨item, rfl, Option.some.inj h, fun deadline hdeadline => ?_⟩
      simpa [Item.isExpired, hdeadline] using hlive

end

-- ---------------------------------------------------------------------------
-- Calls on one layer
-- ---------------------------------------------------------------------------

namespace Memory

variable {puts : String → Bytes → Duration → Prop} (memory : Memory) (now : Instant)

theorem lookup_grown (key : String) : Grown now puts memory.entries (memory.lookup now key).2.entries := by
  unfold lookup
  split
  · exact .refl
  · split
    · exact grown_filter _
    · exact .refl

theorem lookupAll_grown (keys : List String) :
    Grown now puts memory.entries (memory.lookupAll now keys).2.entries := by
  induction keys generalizing memory with
  | nil => exact .refl
  | cons key keys ih =>
    simp only [lookupAll]
    split <;> exact (memory.lookup_grown now key).trans (ih _)

theorem enforceLimit_grown : Grown now puts memory.entries (memory.enforceLimit now).2.entries := by
  unfold enforceLimit
  split
  · exact grown_filter _
  · exact .refl

theorem perform_grown (op : LayerOp) :
    Grown now op.Puts memory.entries (memory.perform now op).2.2.entries := by
  cases op with
  | get key => exact memory.lookup_grown now key
  | delete key => exact grown_filter _
  | mget keys => exact memory.lookupAll_grown now keys
  | set key payload ttl =>
    have hstore : Grown now (LayerOp.set key payload ttl).Puts memory.entries
        (memory.store now ttl key payload).entries := grown_insert .set (.inl rfl)
    exact hstore.trans (enforceLimit_grown _ now)
  | mset items ttl =>
    simp only [perform]
    split
    · exact .refl
    · have hstore : Grown now (LayerOp.mset items ttl).Puts memory.entries
          (memory.storeAll now ttl items.rows).entries :=
        grown_foldl (fun _ _ hrow => grown_insert (.mset hrow) (.inl rfl)) memory
      exact hstore.trans (enforceLimit_grown _ now)

end Memory

theorem Network.perform_grown (layer : Network) (now : Instant) (store : ScriptedStore) (op : LayerOp) :
    Grown now op.Puts store.items ((layer.perform op).run (serve now) store).2.items := by
  cases op with
  | get key =>
    obtain ⟨_, hrun, -⟩ := layer.run_get now store key
    rw [hrun]
    exact .refl
  | mget keys =>
    obtain ⟨_, hrun, -⟩ := layer.run_mget now store keys
    rw [hrun]
    exact .refl
  | delete key => exact grown_filter _
  | set key payload ttl => exact grown_insert .set (.inr rfl)
  | mset items ttl =>
    simp only [perform, mset]
    split
    · exact .refl
    · exact grown_foldl (fun _ _ hrow => grown_insert (.mset hrow) (.inr rfl)) store

-- ---------------------------------------------------------------------------
-- All layers
-- ---------------------------------------------------------------------------

namespace Storage

variable (storage : Storage) (now : Instant) {slot slot' : Nat} {key : String} {item : Item}

def Holds (slot : Nat) (key : String) (item : Item) : Prop := (storage.items slot).get? key = some item

variable {storage now}

/-- Layers with the same home hold the same items. -/
theorem items_home (h : storage.home slot = storage.home slot') :
    storage.items slot = storage.items slot' := by
  unfold home Backing.home at h
  unfold items
  split at h <;> split at h <;> cases h
  · simp only [*]
  · simp only [*]

theorem perform_holds {op : LayerOp} (h : (storage.perform now slot op).2.Holds slot' key item) :
    storage.Holds slot' key item ∨ storage.home slot' = storage.home slot ∧
      ∃ payload ttl, op.Puts key payload ttl ∧ item.Makes payload ttl now := by
  unfold Holds at h ⊢
  rcases storage.perform_items now (Grown now op.Puts) slot op (fun memory => memory.perform_grown now op)
    (fun layer store => layer.perform_grown now store op) slot' with ⟨-, heq⟩ | ⟨hhome, hgrown⟩
  · exact .inl (heq ▸ h)
  · exact (hgrown key item h).imp_right fun hput => ⟨hhome, hput⟩

theorem memory_holds {n : Nat} {memory : Memory}
    (hless : ∀ key item, memory.entries.get? key = some item →
      (storage.memories n).entries.get? key = some item)
    (h : Holds { storage with memories := Function.update storage.memories n memory } slot key item) :
    storage.Holds slot key item := by
  unfold Holds items at h ⊢
  cases hslot : storage.backing slot with
  | network layer n' => simpa [hslot] using h
  | memory n' =>
    by_cases hn : n' = n
    · subst hn
      simp only [hslot, Function.update_self] at h
      exact hless key item h
    · simpa [hslot, hn] using h

theorem sweep_holds {n : Nat} (h : (storage.sweep now n).Holds slot key item) :
    storage.Holds slot key item := by
  refine memory_holds (fun key item hitem => ?_) h
  simp only [Memory.sweep, Table.live, Table.get?_filter] at hitem
  exact (Option.filter_eq_some_iff.mp hitem).1

theorem clear_holds {n : Nat} (h : (storage.clear n).Holds slot key item) :
    storage.Holds slot key item :=
  memory_holds (fun key item hitem => by cases hitem) h

end Storage

end StackedCache
