import StackedCache.Table
import StackedCache.Toml.Document

/-!
# Keys of documents

No table of a document has a key twice, at any depth: a line that would give a
key a second value, or define a table again, makes the document unreadable.
-/

namespace StackedCache.Toml

namespace Rows

def Distinct (rows : Rows) : Prop := (rows.map Prod.fst).Nodup

end Rows

inductive Value.Keyed : Value → Prop
  | string (text : String) : Keyed (.string text)
  | integer (n : Int) : Keyed (.integer n)
  | float (d : Binary64) : Keyed (.float d)
  | boolean (b : Bool) : Keyed (.boolean b)
  | datetime : Keyed .datetime
  | array {items : List Value} (h : ∀ item ∈ items, item.Keyed) : Keyed (.array items)
  | table {origin : Origin} {rows : Rows} (hdistinct : rows.Distinct) (h : ∀ row ∈ rows, row.2.Keyed) :
      Keyed (.table origin rows)
  | tables {items : List Rows} (hdistinct : ∀ rows ∈ items, rows.Distinct)
      (h : ∀ rows ∈ items, ∀ row ∈ rows, row.2.Keyed) : Keyed (.tables items)

structure Rows.Keyed (rows : Rows) : Prop where
  distinct : rows.Distinct
  values : ∀ row ∈ rows, row.2.Keyed

namespace Rows

-- ---------------------------------------------------------------------------
-- Changes of tables
-- ---------------------------------------------------------------------------

theorem keyed_nil : Keyed [] := ⟨.nil, fun _ hrow => nomatch hrow⟩

theorem keyed_table_iff {origin : Origin} {rows : Rows} : (Value.table origin rows).Keyed ↔ rows.Keyed := by
  constructor
  · rintro (_ | _ | _ | _ | _ | _ | ⟨hdistinct, h⟩)
    exact ⟨hdistinct, h⟩
  · rintro ⟨hdistinct, h⟩
    exact .table hdistinct h

theorem keyed_tables_iff {items : List Rows} : (Value.tables items).Keyed ↔ ∀ rows ∈ items, rows.Keyed := by
  constructor
  · rintro (_ | _ | _ | _ | _ | _ | _ | ⟨hdistinct, h⟩) rows hrows
    exact ⟨hdistinct rows hrows, h rows hrows⟩
  · intro h
    exact .tables (fun rows hrows => (h rows hrows).distinct) fun rows hrows => (h rows hrows).values

variable {rows : Rows} {key : String} {v : Value}

theorem get?_eq_lookup : rows.get? key = Table.lookup key rows := by
  induction rows with
  | nil => rfl
  | cons row rest ih => simp [get?, Table.lookup, ih]

theorem not_mem_of_get? (h : rows.get? key = none) : key ∉ rows.map Prod.fst := by
  induction rows with
  | nil => simp
  | cons row rest ih =>
    simp only [get?] at h
    split at h
    · cases h
    · rename_i hkey
      simp only [List.map_cons, List.mem_cons, not_or]
      exact ⟨Ne.symm hkey, ih h⟩

theorem Keyed.get? (hrows : rows.Keyed) (h : rows.get? key = some v) : v.Keyed :=
  hrows.values _ ((Table.lookup_eq_some_iff hrows.distinct).mp (get?_eq_lookup ▸ h))

theorem Keyed.add (hrows : rows.Keyed) (h : rows.get? key = none) (hv : v.Keyed) :
    Keyed (rows ++ [(key, v)]) := by
  refine ⟨?_, ?_⟩
  · unfold Distinct
    rw [List.map_append, List.nodup_append]
    refine ⟨hrows.distinct, by simp, ?_⟩
    rintro k hk _ hkey rfl
    cases List.mem_singleton.mp hkey
    exact not_mem_of_get? h hk
  · intro row hrow
    rcases List.mem_append.mp hrow with hrow | hrow
    · exact hrows.values row hrow
    · cases List.mem_singleton.mp hrow
      exact hv

theorem map_fst_replace (key : String) (v : Value) (rows : Rows) :
    (replace key v rows).map Prod.fst = rows.map Prod.fst := by
  induction rows with
  | nil => rfl
  | cons row rest ih =>
    simp only [replace]
    split
    · rfl
    · simp [ih]

theorem mem_replace {row : String × Value} (h : row ∈ replace key v rows) : row = (row.1, v) ∨ row ∈ rows := by
  induction rows with
  | nil => cases h
  | cons first rest ih =>
    simp only [replace] at h
    split at h
    · rcases List.mem_cons.mp h with rfl | h
      · exact .inl rfl
      · exact .inr (List.mem_cons_of_mem _ h)
    · rcases List.mem_cons.mp h with rfl | h
      · exact .inr List.mem_cons_self
      · exact (ih h).imp_right (List.mem_cons_of_mem _)

theorem Keyed.replace (hrows : rows.Keyed) (hv : v.Keyed) : Keyed (rows.replace key v) := by
  refine ⟨?_, ?_⟩
  · unfold Distinct
    rw [map_fst_replace]
    exact hrows.distinct
  · intro row hrow
    rcases mem_replace hrow with hrow | hrow
    · rw [hrow]
      exact hv
    · exact hrows.values row hrow

theorem Keyed.update {dotted : Bool} {change : Origin → Rows → Option Rows} {rows' : Rows}
    (hchange : ∀ origin inner inner', inner.Keyed → change origin inner = some inner' → inner'.Keyed)
    {origin : Origin} {path : List String} (hrows : rows.Keyed)
    (h : Rows.update dotted change origin path rows = some rows') : rows'.Keyed := by
  induction path generalizing origin rows rows' with
  | nil => exact hchange origin rows rows' hrows h
  | cons key path ih =>
    simp only [Rows.update] at h
    split at h
    · rename_i hget
      obtain ⟨inner, hinner, rfl⟩ := Option.map_eq_some_iff.mp h
      exact hrows.add hget (keyed_table_iff.mpr (ih keyed_nil hinner))
    · rename_i hget
      split at h
      · cases h
      · obtain ⟨inner, hinner, rfl⟩ := Option.map_eq_some_iff.mp h
        exact hrows.replace (keyed_table_iff.mpr (ih (keyed_table_iff.mp (hrows.get? hget)) hinner))
    · rename_i items hget
      have hitems := keyed_tables_iff.mp (hrows.get? hget)
      split at h
      · rename_i last before hreverse
        obtain ⟨inner, hinner, rfl⟩ := Option.map_eq_some_iff.mp h
        have hmem {table : Rows} (htable : table ∈ last :: before) : table ∈ items := by
          rw [← hreverse] at htable
          exact List.mem_reverse.mp htable
        refine hrows.replace (keyed_tables_iff.mpr fun table htable => ?_)
        rcases List.mem_cons.mp (List.mem_reverse.mp htable) with rfl | htable
        · exact ih (hitems _ (hmem List.mem_cons_self)) hinner
        · exact hitems _ (hmem (List.mem_cons_of_mem _ htable))
      · cases h
    · cases h

theorem Keyed.assign {path : List String} {rows' : Rows} (hrows : rows.Keyed) (hv : v.Keyed)
    (h : rows.assign path key v = some rows') : rows'.Keyed := by
  refine hrows.update (fun origin inner inner' hinner hchange => ?_) h
  split at hchange
  · cases hchange
  · rename_i hnew
    cases hchange
    exact hinner.add (by simpa using (not_or.mp hnew).1) hv

theorem Keyed.define {path : List String} {rows' : Rows} (hrows : rows.Keyed)
    (h : rows.define path key = some rows') : rows'.Keyed := by
  refine hrows.update (fun origin inner inner' hinner hchange => ?_) h
  split at hchange
  · rename_i hget
    cases hchange
    exact hinner.add hget (keyed_table_iff.mpr keyed_nil)
  · rename_i hget
    cases hchange
    exact hinner.replace (keyed_table_iff.mpr (keyed_table_iff.mp (hinner.get? hget)))
  · cases hchange

theorem Keyed.append {path : List String} {rows' : Rows} (hrows : rows.Keyed)
    (h : rows.append path key = some rows') : rows'.Keyed := by
  refine hrows.update (fun origin inner inner' hinner hchange => ?_) h
  split at hchange
  · rename_i hget
    cases hchange
    exact hinner.add hget (keyed_tables_iff.mpr (List.forall_mem_singleton.mpr keyed_nil))
  · rename_i hget
    cases hchange
    refine hinner.replace (keyed_tables_iff.mpr fun table htable => ?_)
    rcases List.mem_append.mp htable with htable | htable
    · exact keyed_tables_iff.mp (hinner.get? hget) table htable
    · cases List.mem_singleton.mp htable
      exact keyed_nil
  · cases hchange

end Rows

-- ---------------------------------------------------------------------------
-- Values
-- ---------------------------------------------------------------------------

theorem scalar?_keyed {word : List Char} {v : Value} (h : scalar? word = some v) : v.Keyed := by
  unfold scalar? at h
  split at h
  · cases h
    exact .boolean true
  split at h
  · cases h
    exact .boolean false
  split at h
  · split at h
    · cases h
      exact .integer _
    · cases h
  split at h
  · cases h
    exact .float _
  · split at h
    · cases h
      exact .datetime
    · cases h

/-- What the three readers of values give has distinct keys, as long as the table under
construction has. -/
theorem values_keyed (fuel : Nat) :
    (∀ depth text v rest, value depth fuel text = some (v, rest) → v.Keyed) ∧
    (∀ depth text found rest, items depth fuel text = some (found, rest) → ∀ item ∈ found, item.Keyed) ∧
    ∀ depth rows text rows' rest, members depth fuel rows text = some (rows', rest) →
      Rows.Keyed rows → Rows.Keyed rows' := by
  induction fuel with
  | zero => exact ⟨nofun, nofun, nofun⟩
  | succ fuel ih =>
    obtain ⟨hvalue, hitems, hmembers⟩ := ih
    refine ⟨?_, ?_, ?_⟩
    · intro depth text v rest h
      unfold value at h
      split at h
      · split at h
        · cases h
        · obtain ⟨⟨found, _⟩, hfound, heq⟩ := Option.map_eq_some_iff.mp h
          cases heq
          exact .array (hitems _ _ _ _ hfound)
      · split at h
        · cases h
        · obtain ⟨⟨rows, _⟩, hrows, heq⟩ := Option.map_eq_some_iff.mp h
          cases heq
          exact Rows.keyed_table_iff.mpr (hmembers _ _ _ _ _ hrows Rows.keyed_nil)
      · split at h
        · obtain ⟨⟨text, _⟩, -, heq⟩ := Option.map_eq_some_iff.mp h
          cases heq
          exact .string text
        · obtain ⟨scalar, hscalar, heq⟩ := Option.map_eq_some_iff.mp h
          cases heq
          exact scalar?_keyed hscalar
      · cases h
    · intro depth text found rest h
      simp only [items, Option.bind_eq_bind, Option.bind_eq_some_iff] at h
      obtain ⟨after, -, h⟩ := h
      split at h
      · cases h
        exact List.forall_mem_nil _
      · simp only [Option.bind_eq_some_iff] at h
        obtain ⟨⟨item, _⟩, hitem, after, -, h⟩ := h
        have hkeyed := hvalue _ _ _ _ hitem
        split at h
        · obtain ⟨⟨more, _⟩, hmore, heq⟩ := Option.map_eq_some_iff.mp h
          cases heq
          exact List.forall_mem_cons.mpr ⟨hkeyed, hitems _ _ _ _ hmore⟩
        · cases h
          exact List.forall_mem_singleton.mpr hkeyed
        · cases h
    · intro depth rows text rows' rest h hrows
      simp only [members, Option.bind_eq_bind, Option.bind_eq_some_iff] at h
      obtain ⟨after, -, h⟩ := h
      split at h
      · cases h
        exact hrows
      · simp only [Option.bind_eq_some_iff] at h
        obtain ⟨⟨⟨path, key⟩, _⟩, -, _, -, ⟨v, _⟩, hv, assigned, hassigned, after, -, h⟩ := h
        have hkeyed := hrows.assign (hvalue _ _ _ _ hv) hassigned
        split at h
        · exact hmembers _ _ _ _ _ h hkeyed
        · cases h
          exact hkeyed
        · cases h

-- ---------------------------------------------------------------------------
-- Documents
-- ---------------------------------------------------------------------------

theorem line_keyed {draft draft' : Draft} {text rest : List Char} (hroot : draft.root.Keyed)
    (h : line draft text = some (draft', rest)) : draft'.root.Keyed := by
  unfold line at h
  split at h
  · simp only [Option.bind_eq_bind, Option.bind_eq_some_iff] at h
    obtain ⟨⟨⟨path, key⟩, _⟩, -, _, -, _, -, _, -, root, happend, h⟩ := h
    cases h
    exact hroot.append happend
  · simp only [Option.bind_eq_bind, Option.bind_eq_some_iff] at h
    obtain ⟨⟨⟨path, key⟩, _⟩, -, _, -, _, -, root, hdefine, h⟩ := h
    cases h
    exact hroot.define hdefine
  · simp only [Option.bind_eq_bind, Option.bind_eq_some_iff] at h
    obtain ⟨⟨⟨path, key⟩, _⟩, -, _, -, ⟨v, _⟩, hv, _, -, assigned, hassigned, h⟩ := h
    cases h
    obtain ⟨root, hupdate, rfl⟩ := Option.map_eq_some_iff.mp hassigned
    refine hroot.update (fun origin inner inner' hinner hassign => ?_) hupdate
    exact hinner.assign ((values_keyed _).1 _ _ _ _ hv) hassign

theorem lines_keyed {draft : Draft} {fuel : Nat} {text : List Char} {rows : Rows} (hroot : draft.root.Keyed)
    (h : lines draft fuel text = some rows) : rows.Keyed := by
  induction fuel generalizing draft text with
  | zero => cases h
  | succ fuel ih =>
    simp only [lines] at h
    split at h
    · cases h
    · cases h
      exact hroot
    · split at h
      · cases h
      · rename_i hline
        exact ih (line_keyed hroot hline) h

/-- No table of a document has a key twice. -/
theorem read?_keyed {document : String} {rows : Rows} (h : read? document = some rows) : rows.Keyed :=
  lines_keyed Rows.keyed_nil h

end StackedCache.Toml
