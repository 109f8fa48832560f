import StackedCache.Record

/-!
# Records read back

The payload of a record reads back as that record, whatever follows it. A
value can have any length below 2³², the most that an array header tells.
-/

namespace StackedCache

-- ---------------------------------------------------------------------------
-- Numbers and headers
-- ---------------------------------------------------------------------------

namespace MessagePack

theorem number_append {bytes : Bytes} {width n : Nat} (hlen : bytes.length = width)
    (hn : bigEndian bytes = n) (rest : Bytes) :
    number width (bytes ++ rest) = some (n, rest) := by
  subst hlen
  simp [number, take, hn]

theorem bigEndian_two {n : Nat} (h : n < 2 ^ 16) :
    bigEndian [UInt8.ofNat (n / 256), UInt8.ofNat n] = n := by
  simp only [bigEndian, List.foldl_cons, List.foldl_nil, UInt8.toNat_ofNat']
  omega

theorem bigEndian_four {n : Nat} (h : n < 2 ^ 32) :
    bigEndian [UInt8.ofNat (n / 2 ^ 24), UInt8.ofNat (n / 2 ^ 16), UInt8.ofNat (n / 2 ^ 8),
      UInt8.ofNat n] = n := by
  simp only [bigEndian, List.foldl_cons, List.foldl_nil, UInt8.toNat_ofNat']
  omega

theorem headerAfter_small {b : UInt8} (h : b.toNat < 0x80) (rest : Bytes) :
    headerAfter b rest = some (.unsigned b.toNat, rest) := by
  unfold headerAfter
  exact if_pos h

theorem headerAfter_short {b : UInt8} (h : 0x90 ≤ b.toNat) (h' : b.toNat < 0xa0) (rest : Bytes) :
    headerAfter b rest = some (.array (b.toNat - 0x90), rest) := by
  unfold headerAfter
  rw [if_neg (by omega), if_neg (by omega), if_pos h']

theorem header_arrayHeader {n : Nat} (h : n < 2 ^ 32) (rest : Bytes) :
    header (arrayHeader n ++ rest) = some (.array n, rest) := by
  unfold arrayHeader
  split
  · have hfirst : (UInt8.ofNat (0x90 + n)).toNat = 0x90 + n := by
      rw [UInt8.toNat_ofNat']
      omega
    have hshort := headerAfter_short (b := UInt8.ofNat (0x90 + n)) (by omega) (by omega) rest
    rw [hfirst, Nat.add_sub_cancel_left] at hshort
    exact hshort
  · split
    · rename_i hn
      have hnumber := number_append rfl (bigEndian_two hn) rest
      exact congrArg (Option.map fun x : Nat × Bytes => (Header.array x.1, x.2)) hnumber
    · have hnumber := number_append rfl (bigEndian_four h) rest
      exact congrArg (Option.map fun x : Nat × Bytes => (Header.array x.1, x.2)) hnumber

theorem header_smallNumber (b : UInt8) (rest : Bytes) :
    header (smallNumber b ++ rest) = some (.unsigned b.toNat, rest) := by
  unfold smallNumber
  split
  · rename_i hsmall
    exact headerAfter_small hsmall rest
  · have hone : bigEndian [b] = b.toNat := by simp [bigEndian]
    have hnumber := number_append rfl hone rest
    exact congrArg (Option.map fun x : Nat × Bytes => (Header.unsigned x.1, x.2)) hnumber

end MessagePack

-- ---------------------------------------------------------------------------
-- Fields and records
-- ---------------------------------------------------------------------------

namespace Record

open MessagePack

@[simp] theorem byte_smallNumber (b : UInt8) (rest : Bytes) :
    byte (smallNumber b ++ rest) = some (b, rest) := by
  have hb := b.toNat_lt
  simp only [byte, header_smallNumber, hb, ↓reduceIte, UInt8.ofNat_toNat]

theorem bytesAfter_flatMap (value read rest : Bytes) :
    bytesAfter read value.length (value.flatMap smallNumber ++ rest) =
      some (read.reverse ++ value, rest) := by
  induction value generalizing read with
  | nil => simp [bytesAfter]
  | cons b value ih => simp [bytesAfter, List.append_assoc, ih]

theorem valueField_array {value : Bytes} (h : value.length < 2 ^ 32) (rest : Bytes) :
    valueField (arrayHeader value.length ++ value.flatMap smallNumber ++ rest) =
      some (some value, rest) := by
  simp only [List.append_assoc, valueField, header_arrayHeader h, bytesAfter_flatMap]
  rfl

theorem decode_encode {value : Bytes} (h : value.length < 2 ^ 32) (rest : Bytes) :
    decode (encode value ++ rest) = some (.positive (some value)) := by
  have hheader : header (encode value ++ rest) =
      some (.array 2, arrayHeader value.length ++ value.flatMap smallNumber ++ ([0xc2] ++ rest)) := by
    rw [← List.append_assoc]
    rfl
  simp only [decode, hheader, arrayOfTwo, valueField_array h]
  rfl

theorem decode_encode_alone {value : Bytes} (h : value.length < 2 ^ 32) :
    decode (encode value) = some (.positive (some value)) := by
  rw [← List.append_nil (encode value)]
  exact decode_encode h []

theorem decode_encodeNegative (rest : Bytes) :
    decode (encodeNegative ++ rest) = some .negative := rfl

end Record

end StackedCache
