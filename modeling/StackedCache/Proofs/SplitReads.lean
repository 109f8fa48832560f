import Mathlib.Data.List.Count
import Mathlib.Data.List.Nodup
import StackedCache.Proofs.LiveItems
import StackedCache.Proofs.TableSizes

/-!
# Batch reads of one layer

A batch read takes the keys that are asked for apart: into those that a single
read would find, with the same payloads, and into the missing ones. Memory
layers do so for every list of keys. A networked layer uses up what its store
has found, so a key that is there and asked for again is a hit and missing too;
up to that it takes the keys apart in the same way.
-/

namespace StackedCache

open Simulation

/-- The hits are the keys that single reads find, the rest is missing, and no key is both. -/
structure BatchHits.Splits (batch : BatchHits) (found : String → Option Bytes) (keys : List String) :
    Prop where
  hits (key : String) : batch.hits.get? key = if key ∈ keys then found key else none
  missing : batch.missing = keys.filter fun key => !batch.hits.contains key
  apart {key : String} : key ∈ batch.missing → batch.hits.contains key = false

section
variable {batch : BatchHits} {found : String → Option Bytes} {keys : List String} {key : String}

theorem BatchHits.splits_of (hhits : ∀ key, batch.hits.get? key = if key ∈ keys then found key else none)
    (hmissing : batch.missing = keys.filter fun key => !batch.hits.contains key) :
    batch.Splits found keys where
  hits := hhits
  missing := hmissing
  apart hkey := by
    rw [hmissing, List.mem_filter, Bool.not_eq_true'] at hkey
    exact hkey.2

end

-- ---------------------------------------------------------------------------
-- Memory layers
-- ---------------------------------------------------------------------------

theorem Memory.splits_mget (memory : Memory) (now : Instant) (keys : List String) :
    (memory.perform now (.mget keys)).1.Splits
      (fun key => (memory.perform now (.get key)).1.map Entry.payload) keys := by
  have hget (key : String) : (memory.perform now (.get key)).1 = seen memory.entries now key :=
    memory.lookup_answer now key
  have hmget : (memory.perform now (.mget keys)).1 = .ofFound (seen memory.entries now) keys :=
    memory.lookupAll_answer now keys
  rw [hmget]
  refine BatchHits.splits_of (fun key => ?_) ?_
  · rw [BatchHits.ofFound_hits, hget]
  · rw [BatchHits.ofFound_missing]
    refine List.filter_congr fun key hkey => ?_
    rw [Table.contains, BatchHits.ofFound_hits, if_pos hkey]
    cases seen memory.entries now key <;> rfl

-- ---------------------------------------------------------------------------
-- Networked layers
-- ---------------------------------------------------------------------------

theorem diff_eq_filter {keys found : List String} (h : ∀ key ∈ found, keys.count key ≤ 1) :
    keys.diff found = keys.filter (· ∉ found) := by
  induction keys generalizing found with
  | nil => simp
  | cons k keys ih =>
    have hrest : ∀ key ∈ found, keys.count key ≤ 1 := fun key hkey =>
      Nat.le_trans List.count_le_count_cons (h key hkey)
    rw [List.cons_diff]
    by_cases hk : k ∈ found
    · have hlast : k ∉ keys := by
        have honce := h k hk
        rw [List.count_cons_self] at honce
        exact List.count_eq_zero.mp (by omega)
      rw [if_pos hk, ih fun key hkey => hrest key (List.mem_of_mem_erase hkey),
        List.filter_cons_of_neg (by simpa using hk)]
      refine List.filter_congr fun key hkey => ?_
      have hne : key ≠ k := fun heq => hlast (heq ▸ hkey)
      simp [List.mem_erase_of_ne hne]
    · rw [if_neg hk, ih hrest, List.filter_cons_of_pos (by simpa using hk)]

namespace Network

section
variable {σ : Type} {layer : Network} {answer : (r : StoreRequest) → σ → r.Reply × σ} {s : σ}
  {held : String → Option Bytes} {found : Table Bytes} {keys : List String}

/-- The store behind a layer answers reads by what it holds. Nothing is said of the time left. -/
structure Faithful (layer : Network) (answer : (r : StoreRequest) → σ → r.Reply × σ) (s : σ)
    (held : String → Option Bytes) : Prop where
  get (key : String) : (answer (.call layer.bound (.get key)) s).1 = Except.ok (held key)
  mget (keys : List String) : ∃ found : Table Bytes,
    (answer (.call layer.bound (.mget keys)) s).1 = Except.ok found ∧
      ∀ key ∈ keys, found.get? key = held key

theorem Faithful.run_get (h : layer.Faithful answer s held) (key : String) :
    ∃ found, ((layer.perform (.get key)).run answer s).1 = .ok found ∧
      found.map Entry.payload = held key := by
  have hget : ((layer.call (.get key)).run answer s).1 = .ok (held key) :=
    congrArg (Except.mapError _) (h.get key)
  simp only [perform, Network.get, Proc.run_bind, hget]
  cases held key with
  | none => exact ⟨none, rfl, rfl⟩
  | some payload =>
    simp only [Proc.run_bind]
    split
    · exact ⟨_, rfl, rfl⟩
    · rw [Proc.run_bind]
      exact ⟨_, rfl, rfl⟩

theorem Faithful.run_mget (h : layer.Faithful answer s held) (keys : List String) :
    ∃ found, ((layer.perform (.mget keys)).run answer s).1 = .ok (split found keys) ∧
      ∀ key ∈ keys, found.get? key = held key := by
  simp only [perform, Network.mget]
  split
  · rename_i hempty
    rw [List.isEmpty_iff.mp hempty]
    exact ⟨{}, rfl, List.forall_mem_nil _⟩
  · obtain ⟨found, hanswer, hfound⟩ := h.mget keys
    have hmget : ((layer.call (.mget keys)).run answer s).1 = .ok found :=
      congrArg (Except.mapError _) hanswer
    refine ⟨found, ?_, hfound⟩
    simp only [Proc.run_bind, hmget]
    rfl

theorem split_missing (found : Table Bytes) (keys : List String) :
    (split found keys).missing = keys.diff (split found keys).hits.keys := by
  induction keys generalizing found with
  | nil => simp [split]
  | cons k keys ih =>
    rw [List.cons_diff]
    cases hk : found.get? k with
    | none =>
      have hnew : k ∉ (split found keys).hits.keys := by
        rw [Table.mem_keys_iff, Table.contains, split_get?, hk, ite_self]
        exact Bool.false_ne_true
      simp only [split, hk, if_neg hnew, ih]
    | some payload =>
      have hnew : k ∉ (split (found.erase k) keys).hits.keys := by
        rw [Table.mem_keys_iff, Table.contains, split_get?, Table.get?_erase, if_pos rfl, ite_self]
        exact Bool.false_ne_true
      simp only [split, hk]
      rw [Table.keys_insert hnew, if_pos (List.mem_append_right _ List.mem_cons_self),
        List.erase_append_right _ hnew, ih]
      simp

theorem split_hits (hfound : ∀ key ∈ keys, found.get? key = held key) (key : String) :
    (split found keys).hits.get? key = if key ∈ keys then held key else none := by
  rw [split_get?]
  split
  · exact hfound key ‹_›
  · rfl

/-- The keys are taken apart unless one that is there is asked for again. -/
theorem splits_split_iff (hfound : ∀ key ∈ keys, found.get? key = held key) :
    (split found keys).Splits held keys ↔ ∀ key ∈ keys, (held key).isSome → keys.count key = 1 := by
  have hmem {key : String} : key ∈ (split found keys).hits.keys ↔ key ∈ keys ∧ (held key).isSome := by
    rw [Table.mem_keys_iff, Table.contains, split_hits hfound]
    by_cases hkey : key ∈ keys <;> simp [hkey]
  constructor
  · intro h key hkey hheld
    have hhit : key ∈ (split found keys).hits.keys := hmem.mpr ⟨hkey, hheld⟩
    have hnot : key ∉ (split found keys).missing := fun hmissing => by
      have hapart := h.apart hmissing
      rw [Table.mem_keys_iff, hapart] at hhit
      cases hhit
    have honce : (split found keys).hits.keys.count key = 1 :=
      List.count_eq_one_of_mem (split found keys).hits.nodup hhit
    have hcount := List.count_eq_zero.mpr hnot
    rw [split_missing, List.count_diff, honce] at hcount
    have hpos := List.count_pos_iff.mpr hkey
    omega
  · intro h
    refine BatchHits.splits_of (split_hits hfound) ?_
    rw [split_missing, diff_eq_filter fun key hkey => Nat.le_of_eq (h key (hmem.mp hkey).1 (hmem.mp hkey).2)]
    refine List.filter_congr fun key _ => ?_
    simp only [Table.mem_keys_iff]
    cases (split found keys).hits.contains key <;> rfl

theorem faithful_serve (layer : Network) (now : Instant) (store : ScriptedStore) :
    layer.Faithful (serve now) store (store.items.visible? · now) where
  get _ := rfl
  mget keys := ⟨store.found now keys, rfl, fun key hkey =>
    (foldl_found now store keys {} key).trans ((if_pos hkey).trans Option.or_none)⟩

end

end Network

/-- A batch read of a memory layer takes the keys apart, whatever the layer holds and whichever keys are
asked for. One of a networked layer, over a store that answers reads by what it holds, does so unless a
key that is there is asked for more than once: the hits are always right, and what is missing is the list
of keys less one occurrence, the first, of each hit. -/
theorem batch_reads_split (memory : Memory) (now : Instant) {σ : Type} {layer : Network}
    {answer : (r : StoreRequest) → σ → r.Reply × σ} {s : σ} {held : String → Option Bytes}
    (hstore : layer.Faithful answer s held) (keys : List String) :
    (memory.perform now (.mget keys)).1.Splits
      (fun key => (memory.perform now (.get key)).1.map Entry.payload) keys ∧
    (∀ key, ∃ found, ((layer.perform (.get key)).run answer s).1 = .ok found ∧
      found.map Entry.payload = held key) ∧
    ∃ batch, ((layer.perform (.mget keys)).run answer s).1 = .ok batch ∧
      (∀ key, batch.hits.get? key = if key ∈ keys then held key else none) ∧
      batch.missing = keys.diff batch.hits.keys ∧
      (batch.Splits held keys ↔ ∀ key ∈ keys, (held key).isSome → keys.count key = 1) := by
  refine ⟨memory.splits_mget now keys, hstore.run_get, ?_⟩
  obtain ⟨found, hrun, hfound⟩ := hstore.run_mget keys
  exact ⟨_, hrun, Network.split_hits hfound, Network.split_missing found keys,
    Network.splits_split_iff hfound⟩

def shelf : ScriptedStore where
  batched := true
  rules := []
  items := Table.ofList [("empty", ⟨[], none⟩), ("full", ⟨[7], some (10 ^ 9)⟩), ("gone", ⟨[8], some 0⟩)]

def shelfLayer : Network := ⟨"L2", none⟩

theorem batch_reads_split_missing : shelfLayer.Faithful (Network.serve 0) shelf (shelf.items.visible? · 0) ∧
    ∃ batch, ((shelfLayer.perform (.mget ["gone", "full", "empty", "gone"])).run (Network.serve 0) shelf).1 =
        .ok batch ∧
      batch.Splits (shelf.items.visible? · 0) ["gone", "full", "empty", "gone"] ∧
      batch.hits.get? "empty" = some [] ∧ batch.missing = ["gone", "gone"] := by
  have hstore := shelfLayer.faithful_serve 0 shelf
  obtain ⟨-, -, batch, hrun, hhits, -, hsplits⟩ :=
    batch_reads_split { limit := 0 } 0 hstore ["gone", "full", "empty", "gone"]
  have hall := hsplits.mpr (by decide)
  refine ⟨hstore, batch, hrun, hall, hhits "empty", ?_⟩
  rw [hall.missing]
  simp only [Table.contains, hhits]
  decide

/-- The second time that it is asked for, a key that is there counts as missing. -/
theorem repeated_key_missing : shelfLayer.Faithful (Network.serve 0) shelf (shelf.items.visible? · 0) ∧
    ∃ batch, ((shelfLayer.perform (.mget ["full", "full"])).run (Network.serve 0) shelf).1 = .ok batch ∧
      batch.hits.get? "full" = some [7] ∧ batch.missing = ["full"] ∧
      ¬batch.Splits (shelf.items.visible? · 0) ["full", "full"] := by
  refine ⟨shelfLayer.faithful_serve 0 shelf, _, rfl, by decide, by decide, fun h => ?_⟩
  have hapart := h.apart List.mem_cons_self
  cases hapart

end StackedCache
