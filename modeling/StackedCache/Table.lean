/-!
# Tables

Finite maps from text keys, kept in the order in which the keys first came.
A key stands at most once, so the number of rows is the number of keys.
-/

namespace StackedCache

abbrev Bytes := List UInt8

structure Table (α : Type) where
  rows : List (String × α)
  nodup : (rows.map Prod.fst).Nodup
  deriving DecidableEq

namespace Table

variable {α β : Type}

def empty : Table α := ⟨[], .nil⟩

instance : EmptyCollection (Table α) := ⟨empty⟩
instance : Inhabited (Table α) := ⟨empty⟩

def keys (table : Table α) : List String := table.rows.map Prod.fst

def size (table : Table α) : Nat := table.rows.length

def isEmpty (table : Table α) : Bool := table.rows.isEmpty

def lookup (key : String) : List (String × α) → Option α
  | [] => none
  | (k, a) :: rest => if k = key then some a else lookup key rest

def get? (table : Table α) (key : String) : Option α := lookup key table.rows

def contains (table : Table α) (key : String) : Bool := (table.get? key).isSome

/-- The row of `key` gets the new content in its old place, or a row is added at the end. -/
def put (key : String) (a : α) : List (String × α) → List (String × α)
  | [] => [(key, a)]
  | (k, b) :: rest => if k = key then (k, a) :: rest else (k, b) :: put key a rest

theorem mem_keys_put {key k : String} {a : α} {rows : List (String × α)}
    (h : k ∈ (put key a rows).map Prod.fst) : k = key ∨ k ∈ rows.map Prod.fst := by
  induction rows with
  | nil => simpa [put] using h
  | cons row rest ih =>
    simp only [put] at h
    split at h
    · exact .inr (by simpa using h)
    · simp only [List.map_cons, List.mem_cons] at h ⊢
      rcases h with h | h
      · exact .inr (.inl h)
      · exact (ih h).imp_right .inr

theorem nodup_put {rows : List (String × α)} (key : String) (a : α)
    (h : (rows.map Prod.fst).Nodup) : ((put key a rows).map Prod.fst).Nodup := by
  induction rows with
  | nil => simp [put]
  | cons row rest ih =>
    simp only [List.map_cons, List.nodup_cons] at h
    simp only [put]
    split
    · simpa using h
    · rename_i hne
      simp only [List.map_cons, List.nodup_cons]
      exact ⟨fun hm => (mem_keys_put hm).elim hne h.1, ih h.2⟩

def insert (table : Table α) (key : String) (a : α) : Table α :=
  ⟨put key a table.rows, nodup_put key a table.nodup⟩

theorem nodup_filter {rows : List (String × α)} (p : String × α → Bool)
    (h : (rows.map Prod.fst).Nodup) : ((rows.filter p).map Prod.fst).Nodup :=
  h.sublist ((List.filter_sublist).map _)

def filter (table : Table α) (p : String → α → Bool) : Table α :=
  ⟨table.rows.filter fun row => p row.1 row.2, nodup_filter _ table.nodup⟩

def erase (table : Table α) (key : String) : Table α :=
  table.filter fun k _ => k != key

theorem keys_map (f : α → β) (rows : List (String × α)) :
    (rows.map fun row => (row.1, f row.2)).map Prod.fst = rows.map Prod.fst := by
  simp

def map (table : Table α) (f : α → β) : Table β :=
  ⟨table.rows.map fun row => (row.1, f row.2), keys_map f _ ▸ table.nodup⟩

def insertAll (table : Table α) (rows : List (String × α)) : Table α :=
  rows.foldl (fun t row => t.insert row.1 row.2) table

def ofList (rows : List (String × α)) : Table α := insertAll {} rows

theorem lookup_put (key k : String) (a : α) (rows : List (String × α)) :
    lookup k (put key a rows) = if key = k then some a else lookup k rows := by
  induction rows with
  | nil => simp [put, lookup]
  | cons row rest ih =>
    obtain ⟨r, b⟩ := row
    by_cases h : r = key
    · subst h
      by_cases hk : r = k <;> simp [put, lookup, hk]
    · by_cases hk : r = k
      · subst hk
        simp [put, lookup, h, Ne.symm h]
      · simp [put, lookup, h, hk, ih]

theorem get?_insert (table : Table α) (key k : String) (a : α) :
    (table.insert key a).get? k = if key = k then some a else table.get? k :=
  lookup_put ..

theorem lookup_eq_none {key : String} {rows : List (String × α)}
    (h : key ∉ rows.map Prod.fst) : lookup key rows = none := by
  induction rows with
  | nil => rfl
  | cons row rest ih =>
    simp only [List.map_cons, List.mem_cons, not_or] at h
    simp [lookup, Ne.symm h.1, ih h.2]

theorem lookup_eq_some_iff {key : String} {a : α} {rows : List (String × α)}
    (nodup : (rows.map Prod.fst).Nodup) : lookup key rows = some a ↔ (key, a) ∈ rows := by
  induction rows with
  | nil => simp [lookup]
  | cons row rest ih =>
    obtain ⟨hnew, hrest⟩ := List.nodup_cons.mp nodup
    simp only [lookup, List.mem_cons]
    split
    · rename_i hkey
      subst hkey
      have hnot : (row.1, a) ∉ rest := fun hmem => hnew (List.mem_map.mpr ⟨_, hmem, rfl⟩)
      simp [hnot, Prod.ext_iff, eq_comm]
    · rename_i hkey
      simp [ih hrest, Prod.ext_iff, Ne.symm hkey]

theorem lookup_perm {key : String} {rows rows' : List (String × α)} (h : rows.Perm rows')
    (nodup : (rows.map Prod.fst).Nodup) : lookup key rows = lookup key rows' :=
  Option.ext fun _ => by
    rw [lookup_eq_some_iff nodup, lookup_eq_some_iff ((h.map _).nodup_iff.mp nodup), h.mem_iff]

theorem lookup_map (f : α → β) (key : String) (rows : List (String × α)) :
    lookup key (rows.map fun row => (row.1, f row.2)) = (lookup key rows).map f := by
  induction rows with
  | nil => rfl
  | cons row rest ih =>
    simp only [List.map_cons, lookup, ih]
    split <;> rfl

theorem lookup_filter (p : String × α → Bool) (k : String) {rows : List (String × α)}
    (nodup : (rows.map Prod.fst).Nodup) :
    lookup k (rows.filter p) = (lookup k rows).filter fun a => p (k, a) := by
  induction rows with
  | nil => rfl
  | cons row rest ih =>
    obtain ⟨r, b⟩ := row
    simp only [List.map_cons, List.nodup_cons] at nodup
    by_cases hk : r = k
    · subst hk
      cases hp : p (r, b)
      · simp [hp, lookup, ih nodup.2, lookup_eq_none nodup.1, Option.filter]
      · simp [hp, lookup, Option.filter]
    · cases hp : p (r, b) <;> simp [hp, lookup, hk, ih nodup.2]

theorem get?_eq_some_iff {table : Table α} {key : String} {a : α} :
    table.get? key = some a ↔ (key, a) ∈ table.rows :=
  lookup_eq_some_iff table.nodup

theorem get?_filter (table : Table α) (p : String → α → Bool) (k : String) :
    (table.filter p).get? k = (table.get? k).filter (p k) :=
  lookup_filter _ k table.nodup

theorem get?_erase (table : Table α) (key k : String) :
    (table.erase key).get? k = if k = key then none else table.get? k := by
  rw [erase, get?_filter]
  by_cases h : k = key
  · cases hg : table.get? k <;> simp [Option.filter, h]
  · cases hg : table.get? k <;> simp [Option.filter, h]

end Table

end StackedCache
