import StackedCache.Table

/-!
# Reading text

What readers of text have in common: which characters are blank, numbers written
in digits, a text cut at its marks, and bytes written as a percent sign with two
hexadecimal digits.
-/

namespace StackedCache.Text

-- ---------------------------------------------------------------------------
-- Blank text
-- ---------------------------------------------------------------------------

/-- The Unicode property White_Space. -/
def isWhiteSpace (c : Char) : Bool :=
  let n := c.toNat
  (0x9 ≤ n && n ≤ 0xd) || n == 0x20 || n == 0x85 || n == 0xa0 || n == 0x1680 ||
    (0x2000 ≤ n && n ≤ 0x200a) || n == 0x2028 || n == 0x2029 || n == 0x202f || n == 0x205f ||
    n == 0x3000

def isBlank (text : String) : Bool := text.toList.all isWhiteSpace

-- ---------------------------------------------------------------------------
-- Digits
-- ---------------------------------------------------------------------------

def isDigit (c : Char) : Bool := '0' ≤ c && c ≤ '9'

def isHex (c : Char) : Bool := isDigit c || ('a' ≤ c && c ≤ 'f') || ('A' ≤ c && c ≤ 'F')

def digitValue (c : Char) : Nat :=
  if isDigit c then c.toNat - '0'.toNat
  else if 'a' ≤ c then c.toNat - 'a'.toNat + 10
  else c.toNat - 'A'.toNat + 10

def numberOf (base : Nat) (digits : List Char) : Nat :=
  digits.foldl (fun n c => base * n + digitValue c) 0

def signed : List Char → Bool × List Char
  | '-' :: rest => (true, rest)
  | '+' :: rest => (false, rest)
  | text => (false, text)

def natural? (text : List Char) : Option Nat :=
  if !text.isEmpty && text.all isDigit then some (numberOf 10 text) else none

def withSign (negative : Bool) (n : Nat) : Int := if negative then -n else n

def integer? (text : List Char) : Option Int :=
  (natural? (signed text).2).map (withSign (signed text).1)

def fitsInt64 (n : Int) : Bool := -2 ^ 63 ≤ n && n < 2 ^ 63

def int64? (text : List Char) : Option Int := (integer? text).filter fitsInt64

-- ---------------------------------------------------------------------------
-- Pieces
-- ---------------------------------------------------------------------------

def pieces (mark : Char) : List Char → List (List Char)
  | [] => [[]]
  | c :: rest =>
    if c = mark then [] :: pieces mark rest
    else
      match pieces mark rest with
      | piece :: others => (c :: piece) :: others
      | [] => [[c]]

def cut (mark : Char) (text : List Char) : List Char × Option (List Char) :=
  match text.dropWhile (· != mark) with
  | [] => (text, none)
  | _ :: rest => (text.takeWhile (· != mark), some rest)

-- ---------------------------------------------------------------------------
-- Percent encoding
-- ---------------------------------------------------------------------------

namespace Percent

def hexValue? (b : UInt8) : Option UInt8 :=
  if 0x30 ≤ b && b ≤ 0x39 then some (b - 0x30)
  else if 0x41 ≤ b && b ≤ 0x46 then some (b - 0x41 + 10)
  else if 0x61 ≤ b && b ≤ 0x66 then some (b - 0x61 + 10)
  else none

def escaped? (mark high low : UInt8) : Option UInt8 :=
  if mark = 0x25 then
    match hexValue? high, hexValue? low with
    | some h, some l => some (16 * h + l)
    | _, _ => none
  else none

def decode : Bytes → Bytes
  | b :: high :: low :: rest =>
    match escaped? b high low with
    | some byte => byte :: decode rest
    | none => b :: decode (high :: low :: rest)
  | bytes => bytes

def decodeField (bytes : Bytes) : Bytes :=
  decode (bytes.map fun b => if b = 0x2b then 0x20 else b)

end Percent

end StackedCache.Text
