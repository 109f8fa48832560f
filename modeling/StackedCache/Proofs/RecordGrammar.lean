import StackedCache.Proofs.Format

/-!
# The grammar of records

Which payloads are read as a record, and as which: an array of at most two
fields, a map of named ones, or an empty byte string. The decoder accepts
exactly these, with anything after them.
-/

namespace StackedCache.Record

open MessagePack

-- ---------------------------------------------------------------------------
-- The forms
-- ---------------------------------------------------------------------------

inductive ByteForm (b : UInt8) (bytes : Bytes) : Prop
  | unsigned (h : HeaderForm (.unsigned b.toNat) bytes)
  | signed (h : HeaderForm (.signed b.toNat) bytes)

inductive ValueFieldForm : Option Bytes → Bytes → Prop
  | nil {bytes : Bytes} (h : HeaderForm .nil bytes) : ValueFieldForm none bytes
  | bin {value head : Bytes} (h : HeaderForm (.bin value.length) head) :
      ValueFieldForm (some value) (head ++ value)
  | array {value head : Bytes} {parts : List Bytes} (h : HeaderForm (.array value.length) head)
      (hparts : List.Forall₂ ByteForm value parts) :
      ValueFieldForm (some value) (head ++ parts.flatten)

def MarkFieldForm (mark : Bool) (bytes : Bytes) : Prop := HeaderForm (.bool mark) bytes

def FieldName.IsText (text : Bytes) : FieldName → Prop
  | .value => text = [0x76]
  | .mark => text = [0x6e]
  | .other => text ≠ [0x76] ∧ text ≠ [0x6e]

def FieldName.IsNumber (n : Nat) : FieldName → Prop
  | .value => n = 0
  | .mark => n = 1
  | .other => 2 ≤ n

inductive NameForm (name : FieldName) : Bytes → Prop
  | str {text head : Bytes} (h : HeaderForm (.str text.length) head) (hname : name.IsText text) :
      NameForm name (head ++ text)
  | bin {text head : Bytes} (h : HeaderForm (.bin text.length) head) (hname : name.IsText text) :
      NameForm name (head ++ text)
  | number {n : Nat} {bytes : Bytes} (h : HeaderForm (.unsigned n) bytes)
      (hname : name.IsNumber n) : NameForm name bytes

inductive Entry where
  | value (v : Option Bytes)
  | mark (b : Bool)
  | other

@[simp] def Entry.value? : Entry → Option (Option Bytes)
  | .value v => some v
  | .mark _ => none
  | .other => none

@[simp] def Entry.mark? : Entry → Option Bool
  | .value _ => none
  | .mark b => some b
  | .other => none

inductive EntryForm : Entry → Bytes → Prop
  | value {v : Option Bytes} {name bytes : Bytes} (hname : NameForm .value name)
      (h : ValueFieldForm v bytes) : EntryForm (.value v) (name ++ bytes)
  | mark {b : Bool} {name bytes : Bytes} (hname : NameForm .mark name)
      (h : MarkFieldForm b bytes) : EntryForm (.mark b) (name ++ bytes)
  | other {name bytes : Bytes} (hname : NameForm .other name)
      (h : ValueForm nestingLimit bytes) : EntryForm .other (name ++ bytes)

/-- The bytes of a record, with the fields that they give. -/
inductive Form : Fields → Bytes → Prop
  | bin {bytes : Bytes} (h : HeaderForm (.bin 0) bytes) : Form {} bytes
  | array {bytes : Bytes} (h : HeaderForm (.array 0) bytes) : Form {} bytes
  | arrayOfOne {head bytes : Bytes} {v : Option Bytes} (h : HeaderForm (.array 1) head)
      (hvalue : ValueFieldForm v bytes) : Form { value := some v } (head ++ bytes)
  | arrayOfTwo {head bytes bytes' : Bytes} {v : Option Bytes} {b : Bool}
      (h : HeaderForm (.array 2) head) (hvalue : ValueFieldForm v bytes)
      (hmark : MarkFieldForm b bytes') :
      Form { value := some v, mark := some b } (head ++ (bytes ++ bytes'))
  | map {head : Bytes} {entries : List Entry} {parts : List Bytes}
      (h : HeaderForm (.map entries.length) head) (hparts : List.Forall₂ EntryForm entries parts)
      (hvalue : (entries.filterMap Entry.value?).length ≤ 1)
      (hmark : (entries.filterMap Entry.mark?).length ≤ 1) :
      Form ⟨(entries.filterMap Entry.value?).head?, (entries.filterMap Entry.mark?).head?⟩
        (head ++ parts.flatten)

-- ---------------------------------------------------------------------------
-- Fields
-- ---------------------------------------------------------------------------

theorem reads_byte : Reads byte ByteForm := by
  intro input b rest
  constructor
  · intro h
    unfold byte at h
    split at h
    · rename_i n rest' hheader
      obtain ⟨bytes, hform, rfl⟩ := reads_header.split hheader
      split at h
      · rename_i hn
        cases h
        exact ⟨bytes, .unsigned (by rwa [UInt8.toNat_ofNat_of_lt' hn]), rfl⟩
      · cases h
    · rename_i n rest' hheader
      obtain ⟨bytes, hform, rfl⟩ := reads_header.split hheader
      split at h
      · rename_i hn
        cases h
        refine ⟨bytes, .signed ?_, rfl⟩
        rwa [UInt8.toNat_ofNat_of_lt' (show n.toNat < 256 by omega), Int.toNat_of_nonneg hn.1]
      · cases h
    · cases h
  · rintro ⟨bytes, hform, rfl⟩
    have hb := b.toNat_lt
    cases hform with
    | unsigned h => simp [byte, h.read, hb]
    | signed h =>
      have hlt : (b.toNat : Int) < 256 := by omega
      simp [byte, h.read, hlt]

theorem bytesAfter_eq_some_iff {read value input rest : Bytes} {n : Nat} :
    bytesAfter read n input = some (value, rest) ↔
      ∃ more parts, more.length = n ∧ List.Forall₂ ByteForm more parts ∧
        input = parts.flatten ++ rest ∧ value = read.reverse ++ more := by
  induction n generalizing read input with
  | zero =>
    constructor
    · intro h
      cases h
      exact ⟨[], [], rfl, .nil, rfl, (List.append_nil _).symm⟩
    · rintro ⟨more, parts, hlen, hparts, rfl, rfl⟩
      cases List.length_eq_zero_iff.mp hlen
      cases hparts
      simp [bytesAfter]
  | succ n ih =>
    constructor
    · intro h
      simp only [bytesAfter] at h
      split at h
      · rename_i b rest' hbyte
        obtain ⟨part, hpart, rfl⟩ := reads_byte.split hbyte
        obtain ⟨more, parts, rfl, hparts, rfl, rfl⟩ := ih.mp h
        exact ⟨b :: more, part :: parts, rfl, .cons hpart hparts, by simp, by simp⟩
      · cases h
    · rintro ⟨more, parts, hlen, hparts, rfl, rfl⟩
      obtain ⟨b, more, rfl⟩ := List.exists_cons_of_length_eq_add_one hlen
      cases hparts with
      | @cons _ part _ parts hpart hparts =>
        have hbyte := reads_byte.read hpart (parts.flatten ++ rest)
        simp only [bytesAfter, List.flatten_cons, List.append_assoc, hbyte]
        exact ih.mpr ⟨more, parts, Nat.succ.inj hlen, hparts, rfl, by simp⟩

theorem reads_valueField : Reads valueField ValueFieldForm := by
  intro input v rest
  constructor
  · intro h
    unfold valueField at h
    split at h
    · rename_i hheader
      obtain ⟨head, hhead, rfl⟩ := reads_header.split hheader
      cases h
      exact ⟨head, .nil hhead, rfl⟩
    · rename_i length body hheader
      obtain ⟨head, hhead, rfl⟩ := reads_header.split hheader
      obtain ⟨⟨value, _⟩, hbytes, hv⟩ := Option.map_eq_some_iff.mp h
      cases hv
      obtain ⟨more, parts, rfl, hparts, rfl, rfl⟩ := bytesAfter_eq_some_iff.mp hbytes
      exact ⟨_, .array hhead hparts, (List.append_assoc ..).symm⟩
    · rename_i length body hheader
      obtain ⟨head, hhead, rfl⟩ := reads_header.split hheader
      obtain ⟨⟨value, _⟩, hbytes, hv⟩ := Option.map_eq_some_iff.mp h
      cases hv
      obtain ⟨rfl, rfl⟩ := take_eq_some_iff.mp hbytes
      exact ⟨_, .bin hhead, (List.append_assoc ..).symm⟩
    · cases h
  · rintro ⟨bytes, hform, rfl⟩
    cases hform with
    | nil h => simp [valueField, h.read]
    | bin h => simp [valueField, h.read]
    | @array value head parts h hparts =>
      have hbytes : bytesAfter [] value.length (parts.flatten ++ rest) = some (value, rest) :=
        bytesAfter_eq_some_iff.mpr ⟨value, parts, rfl, hparts, rfl, rfl⟩
      simp [valueField, h.read, hbytes]

theorem reads_markField : Reads markField MarkFieldForm := by
  intro input b rest
  constructor
  · intro h
    unfold markField at h
    split at h
    · rename_i hheader
      obtain ⟨head, hhead, rfl⟩ := reads_header.split hheader
      cases h
      exact ⟨head, hhead, rfl⟩
    · cases h
  · rintro ⟨bytes, hform, rfl⟩
    simp [markField, HeaderForm.read hform]

theorem FieldName.ofText_eq_iff {name : FieldName} {text : Bytes} :
    FieldName.ofText text = name ↔ name.IsText text := by
  unfold FieldName.ofText
  cases name <;> simp only [FieldName.IsText] <;> grind

theorem FieldName.ofNumber_eq_iff {name : FieldName} {n : Nat} :
    (if n = 0 then .value else if n = 1 then .mark else .other) = name ↔ name.IsNumber n := by
  cases name <;> simp only [FieldName.IsNumber] <;> grind

theorem reads_fieldName : Reads fieldName NameForm := by
  intro input name rest
  constructor
  · intro h
    unfold fieldName at h
    split at h
    · rename_i length body hheader
      obtain ⟨head, hhead, rfl⟩ := reads_header.split hheader
      obtain ⟨⟨text, _⟩, htext, hname⟩ := Option.map_eq_some_iff.mp h
      cases hname
      obtain ⟨rfl, rfl⟩ := take_eq_some_iff.mp htext
      exact ⟨_, .str hhead (FieldName.ofText_eq_iff.mp rfl), (List.append_assoc ..).symm⟩
    · rename_i length body hheader
      obtain ⟨head, hhead, rfl⟩ := reads_header.split hheader
      obtain ⟨⟨text, _⟩, htext, hname⟩ := Option.map_eq_some_iff.mp h
      cases hname
      obtain ⟨rfl, rfl⟩ := take_eq_some_iff.mp htext
      exact ⟨_, .bin hhead (FieldName.ofText_eq_iff.mp rfl), (List.append_assoc ..).symm⟩
    · rename_i n body hheader
      obtain ⟨head, hhead, rfl⟩ := reads_header.split hheader
      cases h
      exact ⟨_, .number hhead (FieldName.ofNumber_eq_iff.mp rfl), rfl⟩
    · cases h
  · rintro ⟨bytes, hform, rfl⟩
    cases hform with
    | str h hname | bin h hname =>
      simp [fieldName, h.read, FieldName.ofText_eq_iff.mpr hname]
    | number h hname => simp [fieldName, h.read, FieldName.ofNumber_eq_iff.mpr hname]

-- ---------------------------------------------------------------------------
-- Maps
-- ---------------------------------------------------------------------------

/-- The fields with what one more entry gives, unless the entry's field was there already. -/
def Fields.add (fields : Fields) : Entry → Option Fields
  | .value v => if fields.value.isSome then none else some { fields with value := some v }
  | .mark b => if fields.mark.isSome then none else some { fields with mark := some b }
  | .other => some fields

theorem Fields.foldlM_add {entries : List Entry} {fields out : Fields} :
    entries.foldlM Fields.add fields = some out ↔
      (fields.value.toList ++ entries.filterMap Entry.value?).length ≤ 1 ∧
        (fields.mark.toList ++ entries.filterMap Entry.mark?).length ≤ 1 ∧
        out = ⟨(fields.value.toList ++ entries.filterMap Entry.value?).head?,
          (fields.mark.toList ++ entries.filterMap Entry.mark?).head?⟩ := by
  induction entries generalizing fields with
  | nil =>
    obtain ⟨value, mark⟩ := fields
    cases value <;> cases mark <;> simp [eq_comm]
  | cons entry entries ih =>
    obtain ⟨value, mark⟩ := fields
    cases entry with
    | value v => cases value <;> simp [Fields.add, List.filterMap_cons, ih]
    | mark b => cases mark <;> simp [Fields.add, List.filterMap_cons, ih]
    | other => simp [Fields.add, List.filterMap_cons, ih]

theorem mapFields_succ_eq_some_iff {fields out : Fields} {n : Nat} {input : Bytes} :
    mapFields fields (n + 1) input = some out ↔
      ∃ entry part rest next, EntryForm entry part ∧ input = part ++ rest ∧
        fields.add entry = some next ∧ mapFields next n rest = some out := by
  constructor
  · intro h
    simp only [mapFields] at h
    split at h
    · cases h
    · rename_i body hname
      obtain ⟨name, hform, rfl⟩ := reads_fieldName.split hname
      split at h
      · cases h
      rename_i hnew
      split at h
      · cases h
      rename_i v rest hread
      obtain ⟨bytes, hvalue, rfl⟩ := reads_valueField.split hread
      exact ⟨.value v, _, rest, _, .value hform hvalue, (List.append_assoc ..).symm, if_neg hnew, h⟩
    · rename_i body hname
      obtain ⟨name, hform, rfl⟩ := reads_fieldName.split hname
      split at h
      · cases h
      rename_i hnew
      split at h
      · cases h
      rename_i b rest hread
      obtain ⟨bytes, hmark, rfl⟩ := reads_markField.split hread
      exact ⟨.mark b, _, rest, _, .mark hform hmark, (List.append_assoc ..).symm, if_neg hnew, h⟩
    · rename_i body hname
      obtain ⟨name, hform, rfl⟩ := reads_fieldName.split hname
      split at h
      · cases h
      rename_i rest hskip
      obtain ⟨bytes, hvalue, rfl⟩ := skip_eq_some_iff.mp hskip
      exact ⟨.other, _, rest, _, .other hform hvalue, (List.append_assoc ..).symm, rfl, h⟩
  · rintro ⟨entry, part, rest, next, hform, rfl, hadd, h⟩
    cases hform with
    | @value v name bytes hname hvalue =>
      have hread := reads_fieldName.read hname (bytes ++ rest)
      have hread' := reads_valueField.read hvalue rest
      simp only [Fields.add, Option.ite_none_left_eq_some, Option.some.injEq] at hadd
      obtain ⟨hnew, rfl⟩ := hadd
      simpa [mapFields, hread, hread', hnew] using h
    | @mark b name bytes hname hmark =>
      have hread := reads_fieldName.read hname (bytes ++ rest)
      have hread' := reads_markField.read hmark rest
      simp only [Fields.add, Option.ite_none_left_eq_some, Option.some.injEq] at hadd
      obtain ⟨hnew, rfl⟩ := hadd
      simpa [mapFields, hread, hread', hnew] using h
    | @other name bytes hname hvalue =>
      have hread := reads_fieldName.read hname (bytes ++ rest)
      have hread' : skip nestingLimit (bytes ++ rest) = some rest :=
        skip_eq_some_iff.mpr ⟨bytes, hvalue, rfl⟩
      cases hadd
      simpa [mapFields, hread, hread'] using h

theorem mapFields_eq_some_iff {fields out : Fields} {n : Nat} {input : Bytes} :
    mapFields fields n input = some out ↔
      ∃ entries parts rest, entries.length = n ∧ List.Forall₂ EntryForm entries parts ∧
        input = parts.flatten ++ rest ∧ entries.foldlM Fields.add fields = some out := by
  induction n generalizing fields input with
  | zero =>
    constructor
    · intro h
      exact ⟨[], [], input, rfl, .nil, rfl, h⟩
    · rintro ⟨entries, parts, rest, hlen, -, -, h⟩
      cases List.length_eq_zero_iff.mp hlen
      exact h
  | succ n ih =>
    rw [mapFields_succ_eq_some_iff]
    constructor
    · rintro ⟨entry, part, _, next, hpart, rfl, hadd, h⟩
      obtain ⟨entries, parts, rest, rfl, hparts, rfl, hfold⟩ := ih.mp h
      refine ⟨entry :: entries, part :: parts, rest, rfl, .cons hpart hparts, by simp, ?_⟩
      rw [List.foldlM_cons, hadd]
      exact hfold
    · rintro ⟨entries, parts, rest, hlen, hparts, rfl, h⟩
      obtain ⟨entry, entries, rfl⟩ := List.exists_cons_of_length_eq_add_one hlen
      cases hparts with
      | @cons _ part _ parts hpart hparts =>
        rw [List.foldlM_cons] at h
        obtain ⟨next, hadd, h⟩ := Option.bind_eq_some_iff.mp h
        exact ⟨entry, part, parts.flatten ++ rest, next, hpart, by simp, hadd,
          ih.mpr ⟨entries, parts, rest, Nat.succ.inj hlen, hparts, rfl, h⟩⟩

-- ---------------------------------------------------------------------------
-- Records
-- ---------------------------------------------------------------------------

/-- The decoder accepts exactly the forms of a record, with anything after them, and what it
returns depends on the two fields alone. -/
theorem decode_eq_some_iff {payload : Bytes} {record : Record} :
    decode payload = some record ↔
      ∃ fields bytes rest, Form fields bytes ∧ payload = bytes ++ rest ∧
        record = if fields.mark = some true then .negative else .positive fields.value.join := by
  have hrecord : ∀ fields : Fields, fields.record =
      if fields.mark = some true then .negative else .positive fields.value.join := by
    rintro ⟨_ | v, _ | _ | _⟩ <;> rfl
  simp only [← hrecord]
  constructor
  · intro h
    unfold decode at h
    split at h
    · rename_i rest hheader
      obtain ⟨head, hhead, rfl⟩ := reads_header.split hheader
      cases h
      exact ⟨_, head, rest, .array hhead, rfl, rfl⟩
    · rename_i rest hheader
      obtain ⟨head, hhead, rfl⟩ := reads_header.split hheader
      cases h
      exact ⟨_, head, rest, .bin hhead, rfl, rfl⟩
    · rename_i body hheader
      obtain ⟨head, hhead, rfl⟩ := reads_header.split hheader
      obtain ⟨fields, hfields, rfl⟩ := Option.map_eq_some_iff.mp h
      obtain ⟨⟨v, rest⟩, hread, rfl⟩ := Option.map_eq_some_iff.mp hfields
      obtain ⟨bytes, hvalue, rfl⟩ := reads_valueField.split hread
      exact ⟨_, _, rest, .arrayOfOne hhead hvalue, (List.append_assoc ..).symm, rfl⟩
    · rename_i body hheader
      obtain ⟨head, hhead, rfl⟩ := reads_header.split hheader
      obtain ⟨fields, hfields, rfl⟩ := Option.map_eq_some_iff.mp h
      unfold arrayOfTwo at hfields
      split at hfields
      · cases hfields
      rename_i v body hread
      obtain ⟨bytes, hvalue, rfl⟩ := reads_valueField.split hread
      obtain ⟨⟨b, rest⟩, hread', rfl⟩ := Option.map_eq_some_iff.mp hfields
      obtain ⟨bytes', hmark, rfl⟩ := reads_markField.split hread'
      exact ⟨_, _, rest, .arrayOfTwo hhead hvalue hmark, by simp, rfl⟩
    · rename_i length body hheader
      obtain ⟨head, hhead, rfl⟩ := reads_header.split hheader
      obtain ⟨fields, hfields, rfl⟩ := Option.map_eq_some_iff.mp h
      obtain ⟨entries, parts, rest, rfl, hparts, rfl, hfold⟩ := mapFields_eq_some_iff.mp hfields
      obtain ⟨hvalue, hmark, rfl⟩ := Fields.foldlM_add.mp hfold
      exact ⟨_, _, rest, .map hhead hparts hvalue hmark, (List.append_assoc ..).symm, rfl⟩
    · cases h
  · rintro ⟨fields, bytes, rest, hform, rfl, rfl⟩
    cases hform with
    | bin h => simp [decode, h.read, Fields.record]
    | array h => simp [decode, h.read, Fields.record]
    | @arrayOfOne head bytes v h hvalue =>
      have hread := reads_valueField.read hvalue rest
      simp [decode, h.read, arrayOfOne, hread]
    | @arrayOfTwo head bytes bytes' v b h hvalue hmark =>
      have hread := reads_valueField.read hvalue (bytes' ++ rest)
      have hread' := reads_markField.read hmark rest
      simp [decode, h.read, arrayOfTwo, hread, hread']
    | @map head entries parts h hparts hvalue hmark =>
      have hfold : entries.foldlM Fields.add {} = some _ := Fields.foldlM_add.mpr ⟨hvalue, hmark, rfl⟩
      have hread := mapFields_eq_some_iff.mpr ⟨entries, parts, rest, rfl, hparts, rfl, hfold⟩
      simp only [decode, List.append_assoc, h.read, hread]
      rfl

end StackedCache.Record
