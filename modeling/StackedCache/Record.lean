import StackedCache.MessagePack

/-!
# Records

What a cache stores under a key is a record: a value, or a mark that the key
is known to have none. Layers see its payload, an array or a map of two fields
in MessagePack: the value, as a sequence of small numbers, and the mark.
-/

namespace StackedCache

inductive Record where
  /-- A bare positive record has no value and reads as an empty one. -/
  | positive (value : Option Bytes)
  | negative
  deriving DecidableEq

namespace Record

open MessagePack

def value (record : Record) : Bytes :=
  match record with
  | .positive (some value) => value
  | _ => []

def encode (value : Bytes) : Bytes :=
  0x92 :: (arrayHeader value.length ++ value.flatMap smallNumber ++ [0xc2])

def encodeNegative : Bytes := [0x92, 0xc0, 0xc3]

def byte : Reader UInt8 := fun input =>
  match header input with
  | some (.unsigned n, rest) => if n < 256 then some (UInt8.ofNat n, rest) else none
  | some (.signed n, rest) => if 0 ≤ n ∧ n < 256 then some (UInt8.ofNat n.toNat, rest) else none
  | _ => none

/-- So many bytes, each a number of its own; those read before stand in reverse. -/
def bytesAfter (read : Bytes) : Nat → Reader Bytes
  | 0, input => some (read.reverse, input)
  | n + 1, input =>
    match byte input with
    | some (b, rest) => bytesAfter (b :: read) n rest
    | none => none

def valueField : Reader (Option Bytes) := fun input =>
  match header input with
  | some (.nil, rest) => some (none, rest)
  | some (.array length, rest) => (bytesAfter [] length rest).map fun (v, rest) => (some v, rest)
  | some (.bin length, rest) => (take length rest).map fun (v, rest) => (some v, rest)
  | _ => none

def markField : Reader Bool := fun input =>
  match header input with
  | some (.bool b, rest) => some (b, rest)
  | _ => none

inductive FieldName where
  | value
  | mark
  | other
  deriving DecidableEq

def FieldName.ofText (text : Bytes) : FieldName :=
  if text = [0x76] then .value else if text = [0x6e] then .mark else .other

def fieldName : Reader FieldName := fun input =>
  match header input with
  | some (.str length, rest) | some (.bin length, rest) =>
    (take length rest).map fun (text, rest) => (.ofText text, rest)
  | some (.unsigned n, rest) =>
    some (if n = 0 then .value else if n = 1 then .mark else .other, rest)
  | _ => none

structure Fields where
  value : Option (Option Bytes) := none
  mark : Option Bool := none

/-- A field that is missing has no value or no mark; a mark drops the value. -/
def Fields.record (fields : Fields) : Record :=
  if fields.mark.getD false then .negative else .positive (fields.value.getD none)

def nestingLimit : Nat := 1023

/-- So many fields of a map. No known field may come twice; unknown ones are skipped. -/
def mapFields (fields : Fields) : Nat → Bytes → Option Fields
  | 0, _ => some fields
  | n + 1, input =>
    match fieldName input with
    | none => none
    | some (.value, rest) =>
      if fields.value.isSome then none
      else
        match valueField rest with
        | none => none
        | some (v, rest) => mapFields { fields with value := some v } n rest
    | some (.mark, rest) =>
      if fields.mark.isSome then none
      else
        match markField rest with
        | none => none
        | some (m, rest) => mapFields { fields with mark := some m } n rest
    | some (.other, rest) =>
      match skip nestingLimit rest with
      | none => none
      | some rest => mapFields fields n rest

def arrayOfOne (input : Bytes) : Option Fields :=
  (valueField input).map fun (v, _) => { value := some v }

def arrayOfTwo (input : Bytes) : Option Fields :=
  match valueField input with
  | none => none
  | some (v, rest) => (markField rest).map fun (m, _) => { value := some v, mark := some m }

def decode (payload : Bytes) : Option Record :=
  match header payload with
  | some (.array 0, _) | some (.bin 0, _) => some (.positive none)
  | some (.array 1, rest) => (arrayOfOne rest).map Fields.record
  | some (.array 2, rest) => (arrayOfTwo rest).map Fields.record
  | some (.map length, rest) => (mapFields {} length rest).map Fields.record
  | _ => none

end Record

end StackedCache
