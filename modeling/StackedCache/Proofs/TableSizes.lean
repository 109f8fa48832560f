import Mathlib.Data.List.Perm.Basic
import StackedCache.Table

/-!
# Sizes of tables

How many rows a table has depends on its keys alone. Of two tables, one with
more rows has gained them: the rows that it has lost, and those that it has
gained, make up the difference.
-/

namespace StackedCache.Table

variable {α β : Type}

def without (table : Table α) (other : Table β) : Table α :=
  table.filter fun key _ => !other.contains key

theorem contains_eq (table : Table α) (key : String) : table.contains key = decide (key ∈ table.keys) := by
  cases hkey : table.get? key with
  | none =>
    have hnot : key ∉ table.keys := by
      intro hmem
      obtain ⟨⟨_, a⟩, hrow, rfl⟩ := List.mem_map.mp hmem
      rw [get?_eq_some_iff.mpr hrow] at hkey
      cases hkey
    simp [contains, hkey, hnot]
  | some a =>
    have hmem : key ∈ table.keys := List.mem_map.mpr ⟨_, get?_eq_some_iff.mp hkey, rfl⟩
    simp [contains, hkey, hmem]

theorem mem_keys_iff {table : Table α} {key : String} : key ∈ table.keys ↔ table.contains key = true := by
  rw [contains_eq, decide_eq_true_eq]

theorem put_new {rows : List (String × α)} {key : String} {a : α} (h : key ∉ rows.map Prod.fst) :
    put key a rows = rows ++ [(key, a)] := by
  induction rows with
  | nil => rfl
  | cons row rows ih =>
    simp only [List.map_cons, List.mem_cons, not_or] at h
    simp [put, Ne.symm h.1, ih h.2]

theorem keys_insert {table : Table α} {key : String} {a : α} (h : key ∉ table.keys) :
    (table.insert key a).keys = table.keys ++ [key] := by
  have hrows : (table.insert key a).rows = table.rows ++ [(key, a)] := put_new h
  simp [keys, hrows]

theorem contains_filter (table : Table α) (p : String → α → Bool) (key : String) :
    (table.filter p).contains key = (table.get? key).any (p key) := by
  rw [contains, get?_filter]
  cases table.get? key with
  | none => rfl
  | some a => cases hp : p key a <;> simp [Option.filter, hp]

theorem contains_filter_keys (table : Table α) (p : String → Bool) (key : String) :
    (table.filter fun key _ => p key).contains key = (table.contains key && p key) := by
  rw [contains_filter, contains]
  cases table.get? key <;> simp

theorem contains_without (table : Table α) (other : Table β) (key : String) :
    (table.without other).contains key = (table.contains key && !other.contains key) :=
  table.contains_filter_keys _ key

theorem contains_erase (table : Table α) (key k : String) :
    (table.erase key).contains k = (table.contains k && k != key) :=
  table.contains_filter_keys _ k

theorem contains_insert (table : Table α) (key k : String) (a : α) :
    (table.insert key a).contains k = (k == key || table.contains k) := by
  rw [contains, get?_insert, contains]
  by_cases hk : key = k
  · simp [hk]
  · simp [hk, Ne.symm hk]

theorem contains_map (table : Table α) (f : α → β) (key : String) :
    (table.map f).contains key = table.contains key := by
  rw [contains, get?, map, lookup_map, Option.isSome_map]
  rfl

theorem contains_insertAll (table : Table α) (rows : List (String × α)) (key : String) :
    (table.insertAll rows).contains key = (decide (key ∈ rows.map Prod.fst) || table.contains key) := by
  induction rows generalizing table with
  | nil => simp [insertAll]
  | cons row rows ih =>
    refine (ih (table.insert row.1 row.2)).trans ?_
    rw [contains_insert, List.map_cons, Bool.or_left_comm, ← Bool.or_assoc, beq_eq_decide, ← Bool.decide_or]
    simp only [List.mem_cons]

theorem contains_ofList (rows : List (String × α)) (key : String) :
    (ofList rows).contains key = decide (key ∈ rows.map Prod.fst) :=
  (contains_insertAll {} rows key).trans (Bool.or_false _)

theorem size_congr {table : Table α} {other : Table β} (h : ∀ key, table.contains key = other.contains key) :
    table.size = other.size := by
  have hkeys : table.keys.Perm other.keys := by
    refine (List.perm_ext_iff_of_nodup table.nodup other.nodup).mpr fun key => ?_
    have hkey := h key
    rwa [contains_eq, contains_eq, decide_eq_decide] at hkey
  simpa [keys, size] using hkeys.length_eq

theorem size_eq_zero_of_contains {table : Table α} (h : ∀ key, table.contains key = false) : table.size = 0 :=
  have hnone : ∀ key, table.contains key = ({} : Table α).contains key := h
  size_congr hnone

theorem size_filter_add (table : Table α) (p : String → α → Bool) :
    (table.filter p).size + (table.filter fun key a => !p key a).size = table.size :=
  (List.length_eq_length_filter_add fun row : String × α => p row.1 row.2).symm

/-- What is lost and what is gained make up for the difference of two tables. -/
theorem size_add_gained (before : Table α) (after : Table β) :
    before.size + (after.without before).size = after.size + (before.without after).size := by
  have hbefore := before.size_filter_add fun key _ => after.contains key
  have hafter := after.size_filter_add fun key _ => before.contains key
  have hcommon : (before.filter fun key _ => after.contains key).size =
      (after.filter fun key _ => before.contains key).size := by
    refine size_congr fun key => ?_
    rw [contains_filter_keys, contains_filter_keys, Bool.and_comm]
  simp only [without]
  omega

theorem size_erase (table : Table α) (key : String) :
    (table.erase key).size + (if table.contains key then 1 else 0) = table.size := by
  have hsplit := table.size_filter_add fun k _ => k != key
  have hrow : (table.filter fun k _ => !(k != key)).size = if table.contains key then 1 else 0 := by
    cases hkey : table.contains key with
    | false =>
      refine size_eq_zero_of_contains fun k => ?_
      rw [contains_filter_keys]
      by_cases hk : k = key <;> simp [hk, hkey]
    | true =>
      have hone (k : String) : (table.filter fun k _ => !(k != key)).contains k =
          (({} : Table Unit).insert key ()).contains k := by
        rw [contains_filter_keys, contains_insert]
        by_cases hk : k = key
        · simp [hk, hkey]
        · have hnone : ({} : Table Unit).contains k = false := rfl
          simp [bne, beq_false_of_ne hk, hnone]
      exact size_congr hone
  rw [erase, ← hrow]
  exact hsplit

end StackedCache.Table
