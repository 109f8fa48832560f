import StackedCache.Proofs.Storage

/-!
# Live items

What a call on a layer does to the live item under a key: it keeps it, removes
it or puts another one there. Expired items come and go unseen, so this is all
that later calls can tell, and the answers of a layer depend on nothing else.
-/

namespace StackedCache

open Simulation

inductive Change where
  | kept
  | removed
  | put (payload : Bytes) (ttl : Duration)
  deriving DecidableEq

def Change.apply {α : Type} (make : Bytes → Duration → α) (change : Change) (before : Option α) :
    Option α :=
  match change with
  | .kept => before
  | .removed => none
  | .put payload ttl => some (make payload ttl)

def LayerOp.change (key : String) : LayerOp → Change
  | .set k payload ttl => if k = key then .put payload ttl else .kept
  | .delete k => if k = key then .removed else .kept
  | .mset items ttl =>
    match items.get? key with
    | some payload => .put payload ttl
    | none => .kept
  | .get _ | .mget _ => .kept

def LayerOp.keys : LayerOp → List String
  | .get key | .set key _ _ | .delete key => [key]
  | .mget keys => keys
  | .mset items _ => items.keys

/-- From an instant on the change is what is seen of the live item under the key. -/
def Changed (now : Instant) (make : Bytes → Duration → Item) (key : String) (change : Change)
    (before after : Table Item) : Prop :=
  ∀ t, now ≤ t → after.liveItem? key t =
    (change.apply make (before.liveItem? key t)).filter (·.isLive t)

def Entry.ofItem (now : Instant) (item : Item) : Entry := ⟨item.payload, item.remaining now⟩

-- ---------------------------------------------------------------------------
-- Tables
-- ---------------------------------------------------------------------------

section
variable {now t : Instant} {key k : String} {item : Item} {change : Change}
  {make : Bytes → Duration → Item} {before mid after : Table Item}

theorem Change.apply_map {α β : Type} (f : α → β) (make : Bytes → Duration → α) (change : Change)
    (before : Option α) : (change.apply make before).map f =
      change.apply (fun payload ttl => f (make payload ttl)) (before.map f) := by
  cases change <;> rfl

theorem Change.apply_live (make : Bytes → Duration → Item) (change : Change) (before : Option Item)
    (t : Instant) :
    (change.apply make (before.filter (·.isLive t))).filter (·.isLive t) =
      (change.apply make before).filter (·.isLive t) := by
  cases change with
  | kept => simp [apply, Option.filter_filter]
  | removed => rfl
  | put payload ttl => rfl

theorem LayerOp.change_kept {op : LayerOp} (h : key ∉ op.keys) : op.change key = .kept := by
  cases op with
  | get k => rfl
  | mget keys => rfl
  | set k payload ttl => exact if_neg fun heq => h (List.mem_singleton.mpr heq.symm)
  | delete k => exact if_neg fun heq => h (List.mem_singleton.mpr heq.symm)
  | mset items ttl =>
    have hnone : items.get? key = none := Table.lookup_eq_none h
    simp only [change, hnone]

theorem liveItem_live (items : Table Item) (key : String) (t : Instant) :
    (items.liveItem? key t).filter (·.isLive t) = items.liveItem? key t := by
  simp [Table.liveItem?, Option.filter_filter]

theorem isLive_earlier (h : item.isLive t) (ht : now ≤ t) : item.isLive now := by
  unfold Item.isLive at h ⊢
  cases hx : item.isExpired now with
  | false => rfl
  | true => simp [isExpired_later hx ht] at h

theorem liveItem_later (items : Table Item) (key : String) (ht : now ≤ t) :
    items.liveItem? key t = (items.liveItem? key now).filter (·.isLive t) := by
  simp only [Table.liveItem?, Option.filter_filter]
  congr 1
  funext item
  cases hl : item.isLive t with
  | false => simp
  | true => simp [isLive_earlier hl ht]

theorem liveItem_insert (items : Table Item) (key k : String) (item : Item) (t : Instant) :
    (items.insert key item).liveItem? k t =
      if key = k then (some item).filter (·.isLive t) else items.liveItem? k t := by
  simp only [Table.liveItem?, Table.get?_insert]
  split <;> rfl

theorem liveItem_erase (items : Table Item) (key k : String) (t : Instant) :
    (items.erase key).liveItem? k t = if key = k then none else items.liveItem? k t := by
  simp only [Table.liveItem?, Table.get?_erase, eq_comm (a := k)]
  split <;> rfl

theorem Changed.refl : Changed now make key .kept before before :=
  fun t _ => (liveItem_live before key t).symm

theorem Changed.trans (h : Changed now make key change before mid)
    (h' : Changed now make key .kept mid after) : Changed now make key change before after := by
  intro t ht
  rw [h' t ht, h t ht]
  simp only [Change.apply, Option.filter_filter, Bool.and_self]

theorem changed_live (items : Table Item) : Changed now make key .kept items (items.live now) := by
  intro t ht
  simp only [Change.apply, Table.live, Table.liveItem?, Table.get?_filter, Option.filter_filter]
  congr 1
  funext item
  cases hl : item.isLive t with
  | false => simp
  | true => simp [isLive_earlier hl ht]

theorem changed_erase_expired (hitem : before.get? k = some item) (hx : item.isExpired now) :
    Changed now make key .kept before (before.erase k) := by
  intro t ht
  simp only [Change.apply, liveItem_erase, liveItem_live]
  split
  · rename_i hk
    subst hk
    have hdead : item.isLive t = false := by simp [Item.isLive, isExpired_later hx ht]
    simp [Table.liveItem?, hitem, Option.filter, hdead]
  · rfl

theorem changed_erase : Changed now make key (LayerOp.change key (.delete k)) before (before.erase k) := by
  intro t _
  simp only [LayerOp.change, liveItem_erase]
  split
  · rfl
  · exact (liveItem_live before key t).symm

theorem changed_insert {payload : Bytes} {ttl : Duration} :
    Changed now make key (LayerOp.change key (.set k payload ttl)) before
      (before.insert k (make payload ttl)) := by
  intro t _
  simp only [LayerOp.change, liveItem_insert]
  split
  · rfl
  · exact (liveItem_live before key t).symm

theorem liveItem_foldl {σ : Type} {items : σ → Table Item} {write : σ → String × Bytes → σ}
    {ttl : Duration}
    (h : ∀ s row, items (write s row) = (items s).insert row.1 (make row.2 ttl))
    {rows : List (String × Bytes)} (hrows : (rows.map Prod.fst).Nodup) (s : σ) :
    (items (rows.foldl write s)).liveItem? key t =
      match Table.lookup key rows with
      | some payload => (some (make payload ttl)).filter (·.isLive t)
      | none => (items s).liveItem? key t := by
  induction rows generalizing s with
  | nil => rfl
  | cons row rows ih =>
    obtain ⟨hnew, hrows⟩ := List.nodup_cons.mp hrows
    simp only [List.foldl_cons, ih hrows, Table.lookup, h, liveItem_insert]
    by_cases hk : row.1 = key
    · subst hk
      simp [Table.lookup_eq_none hnew]
    · simp [hk]

theorem changed_foldl {σ : Type} {items : σ → Table Item} {write : σ → String × Bytes → σ}
    {ttl : Duration}
    (h : ∀ s row, items (write s row) = (items s).insert row.1 (make row.2 ttl))
    (rows : Table Bytes) (s : σ) :
    Changed now make key (LayerOp.change key (.mset rows ttl)) (items s)
      (items (rows.rows.foldl write s)) := by
  intro t _
  rw [liveItem_foldl h rows.nodup s]
  simp only [LayerOp.change, Table.get?]
  cases Table.lookup key rows.rows with
  | some payload => rfl
  | none => exact (liveItem_live (items s) key t).symm

end

-- ---------------------------------------------------------------------------
-- Memory layers
-- ---------------------------------------------------------------------------

def BatchHits.ofFound (found : String → Option Entry) : List String → BatchHits
  | [] => {}
  | key :: keys =>
    let batch := ofFound found keys
    match found key with
    | some entry => { batch with hits := batch.hits.insert key entry.payload }
    | none => { batch with missing := key :: batch.missing }

theorem BatchHits.ofFound_hits (found : String → Option Entry) (keys : List String) (key : String) :
    (ofFound found keys).hits.get? key = if key ∈ keys then (found key).map Entry.payload else none := by
  induction keys with
  | nil => rfl
  | cons k keys ih =>
    simp only [ofFound, List.mem_cons]
    cases hk : found k with
    | none =>
      simp only [ih]
      by_cases h : key = k
      · simp [h, hk]
      · simp [h]
    | some entry =>
      simp only [Table.get?_insert, ih]
      by_cases h : key = k
      · simp [h, hk]
      · simp [h, Ne.symm h]

theorem BatchHits.ofFound_missing (found : String → Option Entry) (keys : List String) :
    (ofFound found keys).missing = keys.filter fun key => (found key).isNone := by
  induction keys with
  | nil => rfl
  | cons k keys ih =>
    simp only [ofFound]
    cases hk : found k with
    | none => simp [hk, ih]
    | some entry => simp [hk, ih]

theorem BatchHits.ofFound_congr {found found' : String → Option Entry} {keys : List String}
    (h : ∀ key ∈ keys, found key = found' key) : ofFound found keys = ofFound found' keys := by
  induction keys with
  | nil => rfl
  | cons k keys ih =>
    obtain ⟨hk, hkeys⟩ := List.forall_mem_cons.mp h
    simp only [ofFound, hk, ih hkeys]

namespace Memory

variable (memory : Memory) (now : Instant)

def seen (items : Table Item) (now : Instant) (key : String) : Option Entry :=
  (items.liveItem? key now).map (.ofItem now)

theorem item_isLive (payload : Bytes) (ttl : Duration) : (Memory.item payload ttl now).isLive now = true := by
  unfold Memory.item Instant.after? Item.isLive Item.isExpired
  cases hzero : ttl.isZero with
  | true => simp
  | false =>
    have hpos : 0 < ttl.nanos := Nat.pos_of_ne_zero fun h => by simp [Duration.isZero, h] at hzero
    have hlater : ¬now + ttl.nanos ≤ now := Nat.not_le_of_lt (Nat.lt_add_of_pos_right hpos)
    by_cases hclock : now + ttl.nanos < Instant.horizon
    · simp only [Bool.false_eq_true, ↓reduceIte, hclock, hlater, decide_false, Bool.not_false]
    · simp [hclock]

theorem lookup_changed (k key : String) {make : Bytes → Duration → Item} :
    Changed now make key .kept memory.entries (memory.lookup now k).2.entries := by
  unfold lookup
  cases hitem : memory.entries.get? k with
  | none => exact .refl
  | some item =>
    simp only
    split
    · rename_i hx
      exact changed_erase_expired hitem hx
    · exact .refl

theorem lookup_answer (key : String) :
    (memory.lookup now key).1 = seen memory.entries now key := by
  unfold lookup seen Table.liveItem?
  cases hitem : memory.entries.get? key with
  | none => rfl
  | some item =>
    cases hx : item.isExpired now with
    | false => simp [Option.filter, Item.isLive, hx, Entry.ofItem]
    | true => simp [Option.filter, Item.isLive, hx]

theorem lookupAll_changed (keys : List String) (key : String) {make : Bytes → Duration → Item} :
    Changed now make key .kept memory.entries (memory.lookupAll now keys).2.entries := by
  induction keys generalizing memory with
  | nil => exact .refl
  | cons k keys ih =>
    simp only [lookupAll]
    split <;> exact (memory.lookup_changed now k key).trans (ih _)

/-- A batch read is one lookup per key, on the items as they were at first. -/
theorem lookupAll_answer (keys : List String) :
    (memory.lookupAll now keys).1 = .ofFound (seen memory.entries now) keys := by
  induction keys generalizing memory with
  | nil => rfl
  | cons k keys ih =>
    have hrest : BatchHits.ofFound (seen (memory.lookup now k).2.entries now) keys =
        .ofFound (seen memory.entries now) keys := by
      refine BatchHits.ofFound_congr fun key _ => ?_
      have hkept : Changed now (fun _ _ => default) key .kept memory.entries
          (memory.lookup now k).2.entries :=
        memory.lookup_changed now k key
      simp only [seen, hkept now (Nat.le_refl _), Change.apply, liveItem_live]
    simp only [lookupAll, BatchHits.ofFound, ih, hrest, lookup_answer]
    cases seen memory.entries now k <;> rfl

theorem sweep_changed (key : String) {make : Bytes → Duration → Item} :
    Changed now make key .kept memory.entries (memory.sweep now).2.entries :=
  changed_live memory.entries

theorem enforceLimit_changed (key : String) {make : Bytes → Duration → Item} :
    Changed now make key .kept memory.entries (memory.enforceLimit now).2.entries := by
  unfold enforceLimit
  split
  · exact memory.sweep_changed now key
  · exact .refl

theorem perform_changed (op : LayerOp) (key : String) :
    Changed now (item · · now) key (op.change key) memory.entries (memory.perform now op).2.2.entries := by
  cases op with
  | get k => exact memory.lookup_changed now k key
  | delete k => exact changed_erase
  | mget keys => exact memory.lookupAll_changed now keys key
  | set k payload ttl =>
    have hinsert : Changed now (item · · now) key (LayerOp.change key (.set k payload ttl))
        memory.entries _ :=
      changed_insert
    exact hinsert.trans (enforceLimit_changed _ now key)
  | mset items ttl =>
    simp only [perform]
    split
    · rename_i hempty
      have hnone : items.get? key = none := by
        rw [Table.get?, List.isEmpty_iff.mp hempty]
        rfl
      simp only [LayerOp.change, hnone]
      exact .refl
    · exact (changed_foldl (fun _ _ => rfl) items memory).trans (enforceLimit_changed _ now key)

/-- The answer is settled by the live items under the keys that are named. -/
theorem perform_congr {memory memory' : Memory} {op : LayerOp}
    (h : ∀ key ∈ op.keys, memory.entries.liveItem? key now = memory'.entries.liveItem? key now) :
    (memory.perform now op).1 = (memory'.perform now op).1 := by
  cases op with
  | get key =>
    have hkey := h key List.mem_cons_self
    simp only [perform, lookup_answer, seen, hkey]
  | mget keys =>
    simp only [perform, lookupAll_answer]
    exact BatchHits.ofFound_congr fun key hkey => congrArg _ (h key hkey)
  | _ => rfl

end Memory

-- ---------------------------------------------------------------------------
-- Networked layers
-- ---------------------------------------------------------------------------

namespace Network

variable (layer : Network) (now : Instant) (store : ScriptedStore)

theorem run_get_live (key : String) :
    (layer.perform (.get key)).run (serve now) store =
      (.ok ((store.items.liveItem? key now).map (.ofItem now)), store) := by
  cases hitem : store.items.liveItem? key now with
  | none =>
    simp only [perform, get, Proc.run_bind, run_call layer now store (.get key),
      ScriptedStore.perform, hitem]
    rfl
  | some item =>
    simp only [perform, get, Proc.run_bind, run_call layer now store (.get key),
      run_call layer now store (.ttl key), ScriptedStore.perform, hitem, Option.map_some]
    rfl

theorem found_congr {store store' : ScriptedStore} {keys : List String}
    (h : ∀ key ∈ keys, store.items.liveItem? key now = store'.items.liveItem? key now) :
    store.found now keys = store'.found now keys := by
  unfold ScriptedStore.found
  generalize ({} : Table Bytes) = found
  induction keys generalizing found with
  | nil => rfl
  | cons key keys ih =>
    obtain ⟨hkey, hkeys⟩ := List.forall_mem_cons.mp h
    simp only [List.foldl_cons, hkey]
    exact ih hkeys _

theorem perform_changed (op : LayerOp) (key : String) :
    Changed now (Item.lasting · · now) key (op.change key) store.items
      ((layer.perform op).run (serve now) store).2.items := by
  cases op with
  | get k =>
    rw [run_get_live]
    exact .refl
  | set k payload ttl => exact changed_insert
  | delete k => exact changed_erase
  | mget keys =>
    obtain ⟨_, hrun, -⟩ := layer.run_mget now store keys
    rw [hrun]
    exact .refl
  | mset items ttl =>
    simp only [perform, mset]
    split
    · rename_i hempty
      rw [LayerOp.change_kept (by simp [LayerOp.keys, Table.keys, List.isEmpty_iff.mp hempty])]
      exact .refl
    · exact changed_foldl (fun _ _ => rfl) items store

theorem perform_congr {store store' : ScriptedStore} {op : LayerOp}
    (h : ∀ key ∈ op.keys, store.items.liveItem? key now = store'.items.liveItem? key now) :
    ((layer.perform op).run (serve now) store).1 = ((layer.perform op).run (serve now) store').1 := by
  cases op with
  | get key => rw [run_get_live, run_get_live, h key List.mem_cons_self]
  | mget keys =>
    simp only [perform, mget]
    split
    · rfl
    · exact congrArg (fun found => Except.ok (split found keys)) (found_congr now h)
  | mset items ttl =>
    simp only [perform, mset]
    split <;> rfl
  | _ => rfl

end Network

-- ---------------------------------------------------------------------------
-- All layers
-- ---------------------------------------------------------------------------

namespace Storage

def itemsAt (storage : Storage) : Nat ⊕ Nat → Table Item
  | .inl n => (storage.memories n).entries
  | .inr n => (storage.stores n).items

/-- What is kept at a home for a payload. Only in memory a deadline may be past the clock. -/
def itemAt (home : Nat ⊕ Nat) (now : Instant) (payload : Bytes) (ttl : Duration) : Item :=
  match home with
  | .inl _ => Memory.item payload ttl now
  | .inr _ => Item.lasting payload ttl now

theorem items_eq (storage : Storage) (slot : Nat) :
    storage.items slot = storage.itemsAt (storage.home slot) := by
  unfold items home
  cases storage.backing slot <;> rfl

/-- What a call does to the live items it does at the home of its layer. -/
theorem perform_changed (storage : Storage) (now : Instant) (slot : Nat) (op : LayerOp)
    (home : Nat ⊕ Nat) (key : String) :
    Changed now (itemAt home now) key (if storage.home slot = home then op.change key else .kept)
      (storage.itemsAt home) ((storage.perform now slot op).2.itemsAt home) := by
  unfold perform Storage.home
  cases storage.backing slot with
  | memory n =>
    match home with
    | .inl n' =>
      by_cases hn : n = n'
      · subst hn
        have hhere : Changed now (itemAt (.inl n) now) key (op.change key) _ _ :=
          (storage.memories n).perform_changed now op key
        simpa [itemsAt, Backing.home] using hhere
      · simpa [itemsAt, Backing.home, hn, Ne.symm hn] using Changed.refl
    | .inr n' => simpa [itemsAt, Backing.home] using Changed.refl
  | network layer n =>
    match home with
    | .inl n' => simpa [itemsAt, Backing.home] using Changed.refl
    | .inr n' =>
      by_cases hn : n = n'
      · subst hn
        have hhere : Changed now (itemAt (.inr n) now) key (op.change key) _ _ :=
          layer.perform_changed now (storage.stores n) op key
        simpa [itemsAt, Backing.home] using hhere
      · simpa [itemsAt, Backing.home, hn, Ne.symm hn] using Changed.refl

theorem sweep_changed (storage : Storage) (now : Instant) (n : Nat) (home : Nat ⊕ Nat) (key : String)
    {make : Bytes → Duration → Item} :
    Changed now make key .kept (storage.itemsAt home) ((storage.sweep now n).itemsAt home) := by
  match home with
  | .inl n' =>
    by_cases hn : n' = n
    · subst hn
      simpa [itemsAt, sweep] using (storage.memories n').sweep_changed now key
    · simpa [itemsAt, sweep, hn] using Changed.refl
  | .inr n' => exact .refl

end Storage

end StackedCache
