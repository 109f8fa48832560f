import Mathlib.Logic.Function.Basic
import StackedCache.Proofs.Visible

/-!
# Layers in place

The layers of a cache by their slots: memory layers, and networked ones over
stores that answer truthfully and at once. Slots may share a memory layer, and
networked layers a store. Each call on a layer is told by what is visible in
all of them afterwards.
-/

namespace StackedCache

open Simulation

-- ---------------------------------------------------------------------------
-- Networked layers over a truthful store
-- ---------------------------------------------------------------------------

namespace Network

/-- The store answers every call, before any bound is reached. -/
def serve (now : Instant) : (r : StoreRequest) → ScriptedStore → r.Reply × ScriptedStore
  | .call _ op, store =>
    let (answer, store) := store.perform now op
    (.ok answer, store)
  | .notice _, store => ((), store)

variable (layer : Network) (now : Instant) (store : ScriptedStore)

theorem run_call (op : StoreOp) :
    (layer.call op).run (serve now) store = (.ok (store.perform now op).1, (store.perform now op).2) :=
  rfl

theorem run_get (key : String) :
    ∃ found, (layer.perform (.get key)).run (serve now) store = (.ok found, store) ∧
      found.map Entry.payload = store.items.visible? key now := by
  unfold Table.visible?
  cases hitem : store.items.liveItem? key now with
  | none =>
    refine ⟨none, ?_, rfl⟩
    simp only [perform, get, Proc.run_bind, run_call layer now store (.get key),
      ScriptedStore.perform, hitem]
    rfl
  | some item =>
    refine ⟨some ⟨item.payload, item.remaining now⟩, ?_, rfl⟩
    simp only [perform, get, Proc.run_bind, run_call layer now store (.get key),
      run_call layer now store (.ttl key), ScriptedStore.perform, hitem, Option.map_some]
    rfl

theorem split_get? (found : Table Bytes) (keys : List String) (key : String) :
    (split found keys).hits.get? key = if key ∈ keys then found.get? key else none := by
  induction keys generalizing found with
  | nil => rfl
  | cons k keys ih =>
    simp only [split, List.mem_cons]
    cases hk : found.get? k with
    | none =>
      simp only [ih]
      by_cases h : key = k
      · simp [h, hk]
      · simp [h]
    | some payload =>
      simp only [Table.get?_insert, ih, Table.get?_erase]
      by_cases h : key = k
      · simp [h, hk]
      · simp [h, Ne.symm h]

theorem foldl_found (keys : List String) (found : Table Bytes) (key : String) :
    (keys.foldl (fun found k =>
      match store.items.liveItem? k now with
      | some item => found.insert k item.payload
      | none => found) found).get? key =
    if key ∈ keys then (store.items.visible? key now).or (found.get? key) else found.get? key := by
  induction keys generalizing found with
  | nil => rfl
  | cons k keys ih =>
    simp only [List.foldl_cons, ih, List.mem_cons, Table.visible?]
    cases hk : store.items.liveItem? k now with
    | none =>
      by_cases h : key = k
      · simp [h, hk]
      · simp [h]
    | some item =>
      simp only [Table.get?_insert]
      by_cases h : key = k
      · simp [h, hk]
      · simp [h, Ne.symm h]

theorem run_mget (keys : List String) :
    ∃ batch, (layer.perform (.mget keys)).run (serve now) store = (.ok batch, store) ∧
      ∀ key, batch.hits.get? key =
        if key ∈ keys then store.items.visible? key now else none := by
  simp only [perform, mget]
  split
  · rename_i hempty
    rw [List.isEmpty_iff.mp hempty]
    exact ⟨{}, rfl, fun _ => rfl⟩
  · refine ⟨split (store.found now keys) keys, rfl, fun key => ?_⟩
    have hfound : (store.found now keys).get? key = _ := foldl_found now store keys {} key
    rw [split_get?, hfound]
    split
    · exact Option.or_none
    · rfl

end Network

-- ---------------------------------------------------------------------------
-- All layers
-- ---------------------------------------------------------------------------

inductive Backing where
  | memory (number : Nat)
  | network (layer : Network) (store : Nat)

/-- Where a layer has its items: in memory, or in a store. -/
def Backing.home : Backing → Nat ⊕ Nat
  | .memory n => .inl n
  | .network _ n => .inr n

structure Storage where
  backing : Nat → Backing
  memories : Nat → Memory
  stores : Nat → ScriptedStore

namespace Storage

def items (storage : Storage) (slot : Nat) : Table Item :=
  match storage.backing slot with
  | .memory n => (storage.memories n).entries
  | .network _ n => (storage.stores n).items

def home (storage : Storage) (slot : Nat) : Nat ⊕ Nat := (storage.backing slot).home

def perform (storage : Storage) (now : Instant) (slot : Nat) (op : LayerOp) : op.Reply × Storage :=
  match storage.backing slot with
  | .memory n =>
    let (answer, _, memory) := (storage.memories n).perform now op
    (.ok answer, { storage with memories := Function.update storage.memories n memory })
  | .network layer n =>
    let (reply, store) := (layer.perform op).run (Network.serve now) (storage.stores n)
    (reply, { storage with stores := Function.update storage.stores n store })

def sweep (storage : Storage) (now : Instant) (n : Nat) : Storage :=
  { storage with
    memories := Function.update storage.memories n ((storage.memories n).sweep now).2 }

def clear (storage : Storage) (n : Nat) : Storage :=
  { storage with memories := Function.update storage.memories n (storage.memories n).clear }

/-- From an instant on this is seen under a key in a slot. -/
def Sees (storage : Storage) (now : Instant) (slot : Nat) (key : String)
    (shown : Instant → Option Bytes) : Prop :=
  ∀ t, now ≤ t → t < Instant.horizon → (storage.items slot).visible? key t = shown t

def Kept (now : Instant) (before after : Storage) : Prop :=
  ∀ slot key, after.Sees now slot key ((before.items slot).visible? key)

/-- Under one key something else may be seen from an instant on, in some of the slots. -/
def KeptBut (now : Instant) (key : String) (shown : Instant → Option Bytes)
    (before after : Storage) : Prop :=
  ∀ slot k, after.Sees now slot k ((before.items slot).visible? k) ∨
    k = key ∧ after.Sees now slot k shown

section
variable {storage storage' storage'' : Storage} {now : Instant} {slot : Nat} {key k : String}
  {shown shown' : Instant → Option Bytes}

theorem Sees.trans (h : storage.Sees now slot key shown)
    (h' : storage'.Sees now slot key ((storage.items slot).visible? key)) :
    storage'.Sees now slot key shown :=
  fun t ht hlt => (h' t ht hlt).trans (h t ht hlt)

theorem Sees.kept (h : storage.Sees now slot key shown) (hkept : Kept now storage storage') :
    storage'.Sees now slot key shown :=
  h.trans (hkept slot key)

theorem Sees.keptBut (h : storage.Sees now slot key shown)
    (hkept : KeptBut now k shown' storage storage') (hk : key = k → shown = shown') :
    storage'.Sees now slot key shown := by
  rcases hkept slot key with hsame | ⟨rfl, hnew⟩
  · exact h.trans hsame
  · exact hk rfl ▸ hnew

theorem Kept.refl : Kept now storage storage := fun _ _ _ _ _ => rfl

theorem Kept.trans (h : Kept now storage storage') (h' : Kept now storage' storage'') :
    Kept now storage storage'' :=
  fun slot key => (h slot key).kept h'

theorem Kept.but (h : Kept now storage storage') : KeptBut now key shown storage storage' :=
  fun slot k => .inl (h slot k)

theorem KeptBut.trans (h : KeptBut now key shown storage storage')
    (h' : KeptBut now key shown storage' storage'') : KeptBut now key shown storage storage'' := by
  intro slot k
  rcases h slot k with hsame | ⟨hk, hnew⟩
  · rcases h' slot k with hsame' | hnew
    · exact .inl (hsame.trans hsame')
    · exact .inr hnew
  · exact .inr ⟨hk, hnew.keptBut h' fun _ => rfl⟩

end

variable (storage : Storage) (now : Instant)

theorem perform_backing (slot : Nat) (op : LayerOp) :
    (storage.perform now slot op).2.backing = storage.backing := by
  unfold perform
  cases storage.backing slot <;> rfl

/-- What a call does to the items of its layer it does to all layers that have them at the same
home, and to no others. -/
theorem perform_items (R : Table Item → Table Item → Prop) (slot : Nat) (op : LayerOp)
    (hmemory : ∀ memory : Memory, R memory.entries (memory.perform now op).2.2.entries)
    (hnetwork : ∀ (layer : Network) (store : ScriptedStore),
      R store.items ((layer.perform op).run (Network.serve now) store).2.items) (slot' : Nat) :
    storage.home slot' ≠ storage.home slot ∧
      (storage.perform now slot op).2.items slot' = storage.items slot' ∨
    storage.home slot' = storage.home slot ∧
      R (storage.items slot') ((storage.perform now slot op).2.items slot') := by
  unfold perform home
  cases hslot : storage.backing slot with
  | memory n =>
    cases hslot' : storage.backing slot' with
    | memory n' =>
      by_cases hn : n' = n
      · subst hn
        exact .inr ⟨rfl, by simpa [items, hslot'] using hmemory (storage.memories n')⟩
      · exact .inl ⟨by simpa [Backing.home] using hn, by simp [items, hslot', hn]⟩
    | network layer n' => exact .inl ⟨by simp [Backing.home], by simp [items, hslot']⟩
  | network layer n =>
    cases hslot' : storage.backing slot' with
    | memory n' => exact .inl ⟨by simp [Backing.home], by simp [items, hslot']⟩
    | network layer' n' =>
      by_cases hn : n' = n
      · subst hn
        exact .inr ⟨rfl, by simpa [items, hslot'] using hnetwork layer (storage.stores n')⟩
      · exact .inl ⟨by simpa [Backing.home] using hn, by simp [items, hslot', hn]⟩

theorem perform_kept (slot : Nat) (op : LayerOp)
    (hmemory : ∀ memory : Memory, SameFrom now memory.entries (memory.perform now op).2.2.entries)
    (hnetwork : ∀ (layer : Network) (store : ScriptedStore),
      SameFrom now store.items ((layer.perform op).run (Network.serve now) store).2.items) :
    Kept now storage (storage.perform now slot op).2 := by
  intro slot' key t ht hlt
  rcases perform_items storage now _ slot op hmemory hnetwork slot' with ⟨-, heq⟩ | ⟨-, hsame⟩
  · rw [heq]
  · exact hsame key t ht hlt

theorem perform_keptBut (slot : Nat) (op : LayerOp) {key : String}
    {shown : Instant → Option Bytes}
    (hmemory : ∀ memory : Memory,
      ChangedFrom now key shown memory.entries (memory.perform now op).2.2.entries)
    (hnetwork : ∀ (layer : Network) (store : ScriptedStore),
      ChangedFrom now key shown store.items
        ((layer.perform op).run (Network.serve now) store).2.items) :
    (storage.perform now slot op).2.Sees now slot key shown ∧
    KeptBut now key shown storage (storage.perform now slot op).2 := by
  have hall := perform_items storage now _ slot op hmemory hnetwork
  constructor
  · rcases hall slot with ⟨hne, -⟩ | ⟨-, hchanged⟩
    · exact absurd rfl hne
    · exact fun t ht hlt => (hchanged key t ht hlt).trans (if_pos rfl)
  intro slot' k
  rcases hall slot' with ⟨-, heq⟩ | ⟨-, hchanged⟩
  · exact .inl fun t _ _ => by rw [heq]
  · by_cases hk : k = key
    · subst hk
      exact .inr ⟨rfl, fun t ht hlt => (hchanged k t ht hlt).trans (if_pos rfl)⟩
    · exact .inl fun t ht hlt => (hchanged k t ht hlt).trans (if_neg (Ne.symm hk))

theorem get_spec (slot : Nat) (key : String) :
    (∃ found, (storage.perform now slot (.get key)).1 = .ok found ∧
      found.map Entry.payload = (storage.items slot).visible? key now) ∧
    Kept now storage (storage.perform now slot (.get key)).2 := by
  constructor
  · unfold perform items
    cases storage.backing slot with
    | memory n => exact ⟨_, rfl, ((storage.memories n).lookup_spec now key).1⟩
    | network layer n =>
      obtain ⟨found, hrun, hfound⟩ := layer.run_get now (storage.stores n) key
      exact ⟨found, by simp only [hrun], hfound⟩
  · refine perform_kept storage now slot (.get key) (fun memory => (memory.lookup_spec now key).2)
      fun layer store => ?_
    obtain ⟨_, hrun, -⟩ := layer.run_get now store key
    rw [hrun]
    exact SameFrom.refl

theorem mget_spec (hnow : now < Instant.horizon) (slot : Nat) (keys : List String) :
    (∃ batch, (storage.perform now slot (.mget keys)).1 = .ok batch ∧
      ∀ key, batch.hits.get? key =
        if key ∈ keys then (storage.items slot).visible? key now else none) ∧
    Kept now storage (storage.perform now slot (.mget keys)).2 := by
  constructor
  · unfold perform items
    cases storage.backing slot with
    | memory n => exact ⟨_, rfl, ((storage.memories n).lookupAll_spec now keys).1 hnow⟩
    | network layer n =>
      obtain ⟨batch, hrun, hbatch⟩ := layer.run_mget now (storage.stores n) keys
      exact ⟨batch, by simp only [hrun], hbatch⟩
  · refine perform_kept storage now slot (.mget keys)
      (fun memory => (memory.lookupAll_spec now keys).2) fun layer store => ?_
    obtain ⟨_, hrun, -⟩ := layer.run_mget now store keys
    rw [hrun]
    exact SameFrom.refl

theorem set_spec (slot : Nat) (key : String) (payload : Bytes) (ttl : Duration) :
    (storage.perform now slot (.set key payload ttl)).1 = .ok () ∧
    (storage.perform now slot (.set key payload ttl)).2.Sees now slot key
      (shownFor payload ttl now) ∧
    KeptBut now key (shownFor payload ttl now) storage
      (storage.perform now slot (.set key payload ttl)).2 := by
  refine ⟨?_, perform_keptBut storage now slot (.set key payload ttl) ?_ ?_⟩
  · unfold perform
    cases storage.backing slot <;> rfl
  · intro memory
    exact changedFrom_item.then_same (Memory.enforceLimit_same _ now)
  · exact fun layer store => changedFrom_lasting

theorem mset_spec (slot : Nat) (rows : Table Bytes) (ttl : Duration) :
    (storage.perform now slot (.mset rows ttl)).1 = .ok () ∧
    ∀ slot' k,
      (storage.perform now slot (.mset rows ttl)).2.Sees now slot' k
        ((storage.items slot').visible? k) ∨
      ∃ payload, (k, payload) ∈ rows.rows ∧
        (storage.perform now slot (.mset rows ttl)).2.Sees now slot' k (shownFor payload ttl now) := by
  constructor
  · unfold perform
    cases storage.backing slot with
    | memory n => rfl
    | network layer n =>
      simp only [Network.perform, Network.mset]
      split <;> rfl
  · intro slot' k
    have hwritten := perform_items storage now (WrittenFrom now ttl rows.rows) slot (.mset rows ttl)
      ?_ ?_ slot'
    · rcases hwritten with ⟨-, heq⟩ | ⟨-, hwritten⟩
      · exact .inl fun t _ _ => by rw [heq]
      · exact hwritten k
    · intro memory
      simp only [Memory.perform]
      split
      · exact fun k => .inl fun _ _ _ => rfl
      · refine WrittenFrom.then_same ?_ (Memory.enforceLimit_same _ now)
        exact writtenFrom_foldl (fun _ _ => changedFrom_item) rows.rows memory
    · intro layer store
      simp only [Network.perform, Network.mset]
      split
      · exact fun k => .inl fun _ _ _ => rfl
      · exact writtenFrom_foldl (fun _ _ => changedFrom_lasting) rows.rows store

theorem delete_spec (slot : Nat) (key : String) :
    (storage.perform now slot (.delete key)).1 = .ok () ∧
    (storage.perform now slot (.delete key)).2.Sees now slot key (fun _ => none) ∧
    KeptBut now key (fun _ => none) storage (storage.perform now slot (.delete key)).2 := by
  refine ⟨?_, perform_keptBut storage now slot (.delete key) ?_ ?_⟩
  · unfold perform
    cases storage.backing slot <;> rfl
  · exact fun memory => changedFrom_erase
  · exact fun layer store => changedFrom_erase

theorem sweep_kept (n : Nat) : Kept now storage (storage.sweep now n) := by
  intro slot key t ht hlt
  unfold sweep items
  cases storage.backing slot with
  | memory n' =>
    by_cases hn : n' = n
    · subst hn
      simpa using Memory.sweep_same _ now key t ht hlt
    · simp [hn]
  | network _ _ => rfl

end Storage

end StackedCache
