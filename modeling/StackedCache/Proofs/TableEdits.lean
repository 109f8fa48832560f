import Mathlib.Logic.Basic
import StackedCache.Config.Decode
import StackedCache.Proofs.DistinctKeys

/-!
# Edits of tables

The order of the rows of a table does not matter, and a reader that knows some
keys does not see the others. What an edit of a table may do to the rows that a
reader looks at is said once for all readers.
-/

namespace StackedCache

namespace Toml

inductive Value.Contains : Value → Int → Prop
  | integer (n : Int) : Contains (.integer n) n
  | item {items : List Value} {item : Value} {n : Int} (hitem : item ∈ items) (h : item.Contains n) :
      Contains (.array items) n
  | row {origin : Origin} {rows : Rows} {key : String} {v : Value} {n : Int} (hrow : (key, v) ∈ rows)
      (h : v.Contains n) : Contains (.table origin rows) n
  | tableRow {items : List Rows} {rows : Rows} {key : String} {v : Value} {n : Int} (hrows : rows ∈ items)
      (hrow : (key, v) ∈ rows) (h : v.Contains n) : Contains (.tables items) n

def FitsWord (n : Int) : Prop := -2 ^ 63 ≤ n ∧ n < 2 ^ 64

def Value.Narrow (v : Value) : Prop := ∀ n, v.Contains n → FitsWord n

def Rows.Narrow (rows : Rows) : Prop := ∀ key v, (key, v) ∈ rows → v.Narrow

namespace Rows

/-- A change of a table that leaves its meaning as it is: its rows come in another order, a key
that is not known comes in with a value that does not disturb, or a value is spelled in another way. -/
inductive Edit (Known : String → Prop) (Harmless : Value → Prop) (Alike : String → Value → Value → Prop) :
    Rows → Rows → Prop
  | reorder {rows rows' : Rows} (hdistinct : rows.Distinct) (h : rows.Perm rows') :
      Edit Known Harmless Alike rows rows'
  | extend (before after : Rows) {key : String} {v : Value} (hkey : ¬Known key) (hv : Harmless v) :
      Edit Known Harmless Alike (before ++ after) (before ++ (key, v) :: after)
  | respell (before after : Rows) {key : String} {v v' : Value} (h : Alike key v v') :
      Edit Known Harmless Alike (before ++ (key, v) :: after) (before ++ (key, v') :: after)

-- ---------------------------------------------------------------------------
-- Rows of a key
-- ---------------------------------------------------------------------------

theorem get?_append (key : String) (before after : Rows) :
    get? key (before ++ after) = (get? key before).or (get? key after) := by
  induction before with
  | nil => simp [get?]
  | cons row rest ih =>
    simp only [List.cons_append, get?]
    split
    · rfl
    · exact ih

variable {Known : String → Prop} {Harmless : Value → Prop} {Alike : String → Value → Value → Prop}

/-- Under a known key an edit leaves the value as it is, or spells it in another way. -/
theorem Edit.get? {rows rows' : Rows} (h : Edit Known Harmless Alike rows rows') {key : String}
    (hkey : Known key) : rows'.get? key = rows.get? key ∨
      ∃ v v', Alike key v v' ∧ rows.get? key = some v ∧ rows'.get? key = some v' := by
  cases h with
  | reorder hdistinct h =>
    left
    simp only [get?_eq_lookup]
    exact (Table.lookup_perm h hdistinct).symm
  | @extend before after k v hunknown hv =>
    left
    have hne : k ≠ key := by
      rintro rfl
      exact hunknown hkey
    simp [get?_append, Rows.get?, hne]
  | @respell before after k v v' h =>
    by_cases hk : k = key
    · subst hk
      cases hbefore : Rows.get? k before with
      | some found => simp [get?_append, hbefore]
      | none =>
        refine .inr ⟨v, v', h, ?_, ?_⟩
        · simp [get?_append, hbefore, Rows.get?]
        · simp [get?_append, hbefore, Rows.get?]
    · left
      simp [get?_append, Rows.get?, hk]

end Rows

-- ---------------------------------------------------------------------------
-- Integers of 64 bits
-- ---------------------------------------------------------------------------

namespace Value

theorem narrow_integer {n : Int} : (integer n).Narrow ↔ FitsWord n := by
  constructor
  · intro h
    exact h n (.integer n)
  · rintro h m ⟨⟩
    exact h

theorem narrow_array {items : List Value} : (array items).Narrow ↔ ∀ item ∈ items, item.Narrow := by
  constructor
  · intro h item hitem n hn
    exact h n (.item hitem hn)
  · rintro h n (_ | ⟨hitem, hn⟩)
    exact h _ hitem n hn

theorem narrow_table {origin : Origin} {rows : Rows} : (table origin rows).Narrow ↔ rows.Narrow := by
  constructor
  · intro h key v hrow n hn
    exact h n (.row hrow hn)
  · rintro h n (_ | _ | ⟨hrow, hn⟩)
    exact h _ _ hrow n hn

theorem narrow_tables {items : List Rows} : (tables items).Narrow ↔ ∀ rows ∈ items, rows.Narrow := by
  constructor
  · intro h rows hrows key v hrow n hn
    exact h n (.tableRow hrows hrow hn)
  · rintro h n (_ | _ | _ | ⟨hrows, hrow, hn⟩)
    exact h _ hrows _ _ hrow n hn

end Value

theorem itemsFitWords_iff {items : List Value} :
    itemsFitWords items = true ↔ ∀ item ∈ items, item.fitsWords = true := by
  induction items with
  | nil => simp [itemsFitWords]
  | cons item items ih => simp [itemsFitWords, ih]

theorem rowsFitWords_iff {rows : Rows} :
    rowsFitWords rows = true ↔ ∀ key v, (key, v) ∈ rows → v.fitsWords = true := by
  induction rows with
  | nil => simp [rowsFitWords]
  | cons row rows ih =>
    obtain ⟨key, v⟩ := row
    simp only [rowsFitWords, Bool.and_eq_true, ih, List.mem_cons, Prod.mk.injEq]
    constructor
    · rintro ⟨hv, hrest⟩ k w (⟨-, rfl⟩ | hrow)
      · exact hv
      · exact hrest k w hrow
    · intro h
      exact ⟨h key v (.inl ⟨rfl, rfl⟩), fun k w hrow => h k w (.inr hrow)⟩

theorem tablesFitWords_iff {items : List Rows} :
    tablesFitWords items = true ↔ ∀ rows ∈ items, rowsFitWords rows = true := by
  induction items with
  | nil => simp [tablesFitWords]
  | cons rows items ih => simp [tablesFitWords, ih]

theorem Value.fitsWords_iff (v : Value) : v.fitsWords = true ↔ v.Narrow := by
  match v with
  | .integer n => simp [fitsWords, narrow_integer, FitsWord]
  | .array items =>
    rw [fitsWords, itemsFitWords_iff, narrow_array]
    exact forall₂_congr fun item hitem => fitsWords_iff item
  | .table origin rows =>
    rw [fitsWords, rowsFitWords_iff, narrow_table]
    exact forall₃_congr fun key w hrow => fitsWords_iff w
  | .tables items =>
    simp only [fitsWords, tablesFitWords_iff, rowsFitWords_iff, narrow_tables]
    exact forall₂_congr fun rows hrows => forall₃_congr fun key w hrow => fitsWords_iff w
  | .string _ | .float _ | .boolean _ | .datetime =>
    simp only [fitsWords, true_iff]
    rintro n ⟨⟩
termination_by v
decreasing_by
  · have hsize := List.sizeOf_lt_of_mem hitem
    simp only [array.sizeOf_spec]
    omega
  · have hsize := List.sizeOf_lt_of_mem hrow
    simp only [Prod.mk.sizeOf_spec, table.sizeOf_spec] at hsize ⊢
    omega
  · have hsize := List.sizeOf_lt_of_mem hrow
    have hsizes := List.sizeOf_lt_of_mem hrows
    simp only [Prod.mk.sizeOf_spec, tables.sizeOf_spec] at hsize ⊢
    omega

namespace Rows

theorem narrow_append {before after : Rows} :
    (before ++ after).Narrow ↔ before.Narrow ∧ after.Narrow := by
  constructor
  · intro h
    exact ⟨fun key v hrow => h key v (List.mem_append_left _ hrow),
      fun key v hrow => h key v (List.mem_append_right _ hrow)⟩
  · rintro ⟨hbefore, hafter⟩ key v hrow
    rcases List.mem_append.mp hrow with hrow | hrow
    · exact hbefore key v hrow
    · exact hafter key v hrow

theorem narrow_cons {key : String} {v : Value} {rows : Rows} :
    Rows.Narrow ((key, v) :: rows) ↔ v.Narrow ∧ rows.Narrow := by
  constructor
  · intro h
    exact ⟨h key v List.mem_cons_self, fun k w hrow => h k w (List.mem_cons_of_mem _ hrow)⟩
  · rintro ⟨hv, hrows⟩ k w hrow
    rcases List.mem_cons.mp hrow with heq | hrow
    · cases heq
      exact hv
    · exact hrows k w hrow

/-- An edit that lets in nothing wide leaves a table as narrow as it was. -/
theorem Edit.narrow_iff {Known : String → Prop} {Harmless : Value → Prop}
    {Alike : String → Value → Value → Prop} {rows rows' : Rows} (h : Edit Known Harmless Alike rows rows')
    (hharmless : ∀ v, Harmless v → v.Narrow)
    (halike : ∀ key v v', Alike key v v' → (v'.Narrow ↔ v.Narrow)) : rows'.Narrow ↔ rows.Narrow := by
  cases h with
  | reorder _ h => exact forall₂_congr fun key v => imp_congr h.mem_iff.symm Iff.rfl
  | extend before after _ hv => simp [narrow_append, narrow_cons, hharmless _ hv]
  | respell before after h => simp [narrow_append, narrow_cons, halike _ _ _ h]

end Rows

theorem Rows.fitWords_iff {rows : Rows} : rowsFitWords rows = true ↔ rows.Narrow := by
  rw [rowsFitWords_iff]
  exact forall₃_congr fun _ v _ => v.fitsWords_iff

end Toml

end StackedCache
