import StackedCache.Proofs.RecordGrammar

/-!
# Payloads that are cut

A payload that lost its end is no record: both fields of what the cache writes
are there in full or reading fails, so no default stands in for the missing
bytes. A value too long for its header is not read as another one either.
-/

namespace StackedCache.Record

open MessagePack

theorem decode_cons_array (input : Bytes) :
    decode (0x92 :: input) = (arrayOfTwo input).map Fields.record := rfl

theorem arrayOfTwo_eq_some {input : Bytes} {fields : Fields} (h : arrayOfTwo input = some fields) :
    ∃ v b mid rest, valueField input = some (v, mid) ∧ markField mid = some (b, rest) := by
  unfold arrayOfTwo at h
  split at h
  · cases h
  · rename_i v mid hvalue
    obtain ⟨⟨b, rest⟩, hmark, -⟩ := Option.map_eq_some_iff.mp h
    exact ⟨v, b, mid, rest, hvalue, hmark⟩

/-- Nothing short of both fields reads as a record. -/
theorem decode_cut {v : Option Bytes} {b : Bool} {body mark cut : Bytes}
    (hvalue : valueField (body ++ mark) = some (v, mark)) (hmark : markField mark = some (b, []))
    (hcut : cut <+: 0x92 :: (body ++ mark)) (hne : cut ≠ 0x92 :: (body ++ mark)) :
    decode cut = none := by
  obtain ⟨tail, htail⟩ := hcut
  cases cut with
  | nil => rfl
  | cons first input =>
    obtain ⟨rfl, hinput⟩ := List.cons.inj htail
    rw [decode_cons_array, Option.map_eq_none_iff, Option.eq_none_iff_forall_ne_some]
    intro fields hfields
    obtain ⟨v', b', mid, rest, hvalue', hmark'⟩ := arrayOfTwo_eq_some hfields
    -- the fields found in the cut are those of the whole, so nothing was cut off
    have hmid : mid ++ tail = mark := by
      have h := reads_valueField.extend hvalue' tail
      rw [show input ++ tail = body ++ mark from hinput, hvalue] at h
      exact (Prod.mk.inj (Option.some.inj h)).2.symm
    have hend : rest ++ tail = [] := by
      have h := reads_markField.extend hmark' tail
      rw [hmid, hmark] at h
      exact (Prod.mk.inj (Option.some.inj h)).2.symm
    obtain ⟨-, rfl⟩ := List.append_eq_nil_iff.mp hend
    exact hne (by rw [← htail, List.append_nil])

/-- A payload of the cache reads back as what it was made of, with anything after it, and not at all
without its end. -/
theorem decode_of_append_or_cut {value : Bytes} (h : value.length < 2 ^ 32) :
    (∀ rest, decode (encode value ++ rest) = some (.positive (some value))) ∧
      (∀ rest, decode (encodeNegative ++ rest) = some .negative) ∧
      (∀ cut, cut <+: encode value → cut ≠ encode value → decode cut = none) ∧
      (∀ cut, cut <+: encodeNegative → cut ≠ encodeNegative → decode cut = none) :=
  have hnil : valueField ([0xc0] ++ [0xc3]) = some (none, [0xc3]) := rfl
  ⟨decode_encode h, decode_encodeNegative, fun _ => decode_cut (valueField_array h [0xc2]) rfl,
    fun _ => decode_cut hnil rfl⟩

theorem decode_of_append_or_cut_two :
    decode (encode [0x05, 0xc8] ++ [0xff]) = some (.positive (some [0x05, 0xc8])) ∧
      decode [0x92, 0x92, 0x05, 0xcc, 0xc8] = none ∧ decode [0x92, 0xc0] = none := by
  have hshort : List.length [(0x05 : UInt8), 0xc8] < 2 ^ 32 := by decide
  have h := decode_of_append_or_cut hshort
  exact ⟨h.1 [0xff], h.2.2.1 _ ⟨[0xc2], rfl⟩ (by decide), h.2.2.2 _ ⟨[0xc3], rfl⟩ (by decide)⟩

-- ---------------------------------------------------------------------------
-- Values too long for a header
-- ---------------------------------------------------------------------------

theorem header_arrayHeader_mod {n : Nat} (h : 2 ^ 16 ≤ n) (rest : Bytes) :
    header (arrayHeader n ++ rest) = some (.array (n % 2 ^ 32), rest) := by
  have hdigits : bigEndian [UInt8.ofNat (n / 2 ^ 24), UInt8.ofNat (n / 2 ^ 16),
      UInt8.ofNat (n / 2 ^ 8), UInt8.ofNat n] = n % 2 ^ 32 := by
    simp only [bigEndian, List.foldl_cons, List.foldl_nil, UInt8.toNat_ofNat']
    omega
  unfold arrayHeader
  rw [if_neg (by omega), if_neg (by omega)]
  exact congrArg (Option.map fun x : Nat × Bytes => (Header.array x.1, x.2))
    (number_append rfl hdigits rest)

/-- Where the header tells less than there is, a number stands where the mark should. -/
theorem decode_encode_long {value : Bytes} (h : 2 ^ 32 ≤ value.length) :
    decode (encode value) = none := by
  obtain ⟨told, more, rfl, htold⟩ : ∃ told more, value = told ++ more ∧
      told.length = value.length % 2 ^ 32 :=
    ⟨value.take (value.length % 2 ^ 32), value.drop (value.length % 2 ^ 32),
      (List.take_append_drop ..).symm, by rw [List.length_take]; omega⟩
  obtain ⟨b, more, rfl⟩ : ∃ b more', more = b :: more' := by
    cases more with
    | nil => simp at h htold; omega
    | cons b more => exact ⟨b, more, rfl⟩
  have hvalue : ∀ rest, valueField (arrayHeader (told ++ b :: more).length ++
      (told.flatMap smallNumber ++ rest)) = some (some told, rest) := by
    intro rest
    have hlong : 2 ^ 16 ≤ (told ++ b :: more).length := by omega
    simp only [valueField, header_arrayHeader_mod hlong, ← htold, bytesAfter_flatMap]
    rfl
  have hmark : ∀ rest, markField (smallNumber b ++ rest) = none := by
    intro rest
    simp only [markField, header_smallNumber]
  simp only [encode, List.flatMap_append, List.flatMap_cons, List.append_assoc, decode_cons_array,
    arrayOfTwo, hvalue, hmark, Option.map_none]

theorem eq_of_decode_encode {value : Bytes} {record : Record}
    (h : decode (encode value) = some record) : record = .positive (some value) := by
  by_cases hlen : value.length < 2 ^ 32
  · rw [decode_encode_alone hlen] at h
    exact (Option.some.inj h).symm
  · rw [decode_encode_long (by omega)] at h
    cases h

end StackedCache.Record
