import StackedCache.Table

/-!
# MessagePack

Values of a binary format in which the first byte gives a value's kind and,
for most kinds, the width of a length or of a number that follows. Reading
goes as far as the header of a value; `skip` passes over a whole value.
-/

namespace StackedCache.MessagePack

/-- The head of a value: all of a scalar, and the size of what follows otherwise. Unsigned
and signed forms of a number stay apart. -/
inductive Header where
  | nil
  | bool (b : Bool)
  | unsigned (n : Nat)
  | signed (n : Int)
  /-- A floating-point number, of which only the width is read. -/
  | float (width : Nat)
  | str (length : Nat)
  | bin (length : Nat)
  | array (length : Nat)
  | map (length : Nat)
  | ext (length : Nat)
  deriving DecidableEq

abbrev Reader (α : Type) : Type := Bytes → Option (α × Bytes)

def take (n : Nat) : Reader Bytes := fun input =>
  let bytes := input.take n
  if bytes.length = n then some (bytes, input.drop n) else none

def drop : Nat → Bytes → Option Bytes
  | 0, input => some input
  | _ + 1, [] => none
  | n + 1, _ :: input => drop n input

def bigEndian (bytes : Bytes) : Nat := bytes.foldl (fun n b => 256 * n + b.toNat) 0

def number (width : Nat) : Reader Nat := fun input =>
  (take width input).map fun (bytes, rest) => (bigEndian bytes, rest)

def twosComplement (width n : Nat) : Int :=
  if 2 * n < 256 ^ width then n else (n : Int) - 256 ^ width

def headerAfter (first : UInt8) : Reader Header := fun input =>
  let b := first.toNat
  let sized (make : Nat → Header) (width : Nat) : Option (Header × Bytes) :=
    (number width input).map fun (n, rest) => (make n, rest)
  if b < 0x80 then some (.unsigned b, input)
  else if b < 0x90 then some (.map (b - 0x80), input)
  else if b < 0xa0 then some (.array (b - 0x90), input)
  else if b < 0xc0 then some (.str (b - 0xa0), input)
  else if 0xe0 ≤ b then some (.signed ((b : Int) - 256), input)
  else
    match b with
    | 0xc0 => some (.nil, input)
    | 0xc2 => some (.bool false, input)
    | 0xc3 => some (.bool true, input)
    | 0xc4 => sized .bin 1
    | 0xc5 => sized .bin 2
    | 0xc6 => sized .bin 4
    | 0xc7 => sized .ext 1
    | 0xc8 => sized .ext 2
    | 0xc9 => sized .ext 4
    | 0xca => some (.float 4, input)
    | 0xcb => some (.float 8, input)
    | 0xcc => sized .unsigned 1
    | 0xcd => sized .unsigned 2
    | 0xce => sized .unsigned 4
    | 0xcf => sized .unsigned 8
    | 0xd0 => sized (fun n => .signed (twosComplement 1 n)) 1
    | 0xd1 => sized (fun n => .signed (twosComplement 2 n)) 2
    | 0xd2 => sized (fun n => .signed (twosComplement 4 n)) 4
    | 0xd3 => sized (fun n => .signed (twosComplement 8 n)) 8
    | 0xd4 => some (.ext 1, input)
    | 0xd5 => some (.ext 2, input)
    | 0xd6 => some (.ext 4, input)
    | 0xd7 => some (.ext 8, input)
    | 0xd8 => some (.ext 16, input)
    | 0xd9 => sized .str 1
    | 0xda => sized .str 2
    | 0xdb => sized .str 4
    | 0xdc => sized .array 2
    | 0xdd => sized .array 4
    | 0xde => sized .map 2
    | 0xdf => sized .map 4
    | _ => none

def header : Reader Header
  | [] => none
  | first :: input => headerAfter first input

def skipMany (one : Bytes → Option Bytes) : Nat → Bytes → Option Bytes
  | 0, input => some input
  | n + 1, input =>
    match one input with
    | none => none
    | some rest => skipMany one n rest

/-- Passes over one value in which containers are nested less than `depth` deep. -/
def skip : Nat → Bytes → Option Bytes
  | 0, _ => none
  | depth + 1, input =>
    match header input with
    | none => none
    | some (.float width, rest) => drop width rest
    | some (.str length, rest) | some (.bin length, rest) => drop length rest
    | some (.array length, rest) => if depth = 0 then none else skipMany (skip depth) length rest
    | some (.map length, rest) => if depth = 0 then none else skipMany (skip depth) (2 * length) rest
    -- an extension has a byte for its type
    | some (.ext length, rest) => if depth = 0 then none else drop (length + 1) rest
    | some (_, rest) => some rest

def arrayHeader (length : Nat) : Bytes :=
  if length < 16 then [UInt8.ofNat (0x90 + length)]
  else if length < 2 ^ 16 then [0xdc, UInt8.ofNat (length / 256), UInt8.ofNat length]
  else
    [0xdd, UInt8.ofNat (length / 2 ^ 24), UInt8.ofNat (length / 2 ^ 16),
      UInt8.ofNat (length / 2 ^ 8), UInt8.ofNat length]

def smallNumber (b : UInt8) : Bytes := if b < 0x80 then [b] else [0xcc, b]

end StackedCache.MessagePack
