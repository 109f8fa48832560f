import StackedCache.Binary64
import StackedCache.Text.Reading

/-!
# Decimal text of doubles

A decimal is read as the double nearest to it, and a double is written with the
fewest digits that read back as the same one.
-/

namespace StackedCache.Text.Decimal

/-- The double nearest to `digits · 10 ^ exponent`. Far outside the range of doubles the
exponent alone decides. -/
def nearest (negative : Bool) (digits : List Char) (exponent : Int) : Binary64 :=
  let significant := digits.dropWhile (· == '0')
  let n := numberOf 10 significant
  let size := exponent + significant.length
  if n = 0 ∨ size < -400 then Binary64.ofQuotient negative 0 1
  else if 400 < size then Binary64.infinity negative
  else if 0 ≤ exponent then Binary64.ofQuotient negative (n * 10 ^ exponent.toNat) 1
  else Binary64.ofQuotient negative n (10 ^ (-exponent).toNat)

def isExponentMark (c : Char) : Bool := c == 'e' || c == 'E'

def mantissa? (text : List Char) : Option (List Char × Nat) :=
  let whole := text.takeWhile (· != '.')
  let fraction := (text.dropWhile (· != '.')).drop 1
  if !(whole ++ fraction).isEmpty && (whole ++ fraction).all isDigit then
    some (whole ++ fraction, fraction.length)
  else none

def double? (text : List Char) : Option Binary64 :=
  let (negative, rest) := signed text
  let word := String.ofList (rest.map Char.toLower)
  if word = "inf" ∨ word = "infinity" then some (Binary64.infinity negative)
  else if word = "nan" then some (Binary64.nan negative)
  else do
    let (digits, places) ← mantissa? (rest.takeWhile (!isExponentMark ·))
    let exponent ← match rest.dropWhile (!isExponentMark ·) with
      | [] => some 0
      | _ :: exponent => integer? exponent
    some (nearest negative digits (exponent - places))

def power (exponent : Int) : Rat :=
  if 0 ≤ exponent then (10 ^ exponent.toNat : Nat) else mkRat 1 (10 ^ (-exponent).toNat)

def digitCount (n : Nat) : Nat := (Nat.toDigits 10 n).length

def firstPlace (r : Rat) : Int :=
  let num := r.num.toNat
  if r.den ≤ num then digitCount (num / r.den) - 1
  else -(digitCount ((r.den + num - 1) / num - 1) : Int)

def readsBack (magnitude : Nat) (r : Rat) : Bool :=
  let value := Binary64.magnitude magnitude
  let low := (Binary64.magnitude (magnitude - 1) + value) / 2
  let high := (value + Binary64.magnitude (magnitude + 1)) / 2
  if magnitude % 2 = 0 then low ≤ r && r ≤ high else low < r && r < high

/-- The nearer of the two neighbours on a grid that read back, counted in steps of the grid. -/
def onGrid? (magnitude : Nat) (unit : Rat) : Option Nat :=
  let value := Binary64.magnitude magnitude
  let below := (value / unit).floor.toNat
  let above := below + 1
  let lowFits := readsBack magnitude (below * unit)
  let highFits := readsBack magnitude (above * unit)
  if lowFits && highFits then
    some (if value - below * unit ≤ above * unit - value then below else above)
  else if lowFits then some below
  else if highFits then some above
  else none

def shortest (magnitude : Nat) : List Char × Int :=
  let first := firstPlace (Binary64.magnitude magnitude)
  let found := (List.range 17).findSome? fun (more : Nat) =>
    (onGrid? magnitude (power (first - more))).map fun n => (n, first - (more : Int))
  let (n, last) := found.getD (0, first)
  let digits := Nat.toDigits 10 n
  let place := last + digits.length - 1
  match (digits.reverse.dropWhile (· == '0')).reverse with
  | [] => (['0'], place)
  | significant => (significant, place)

def positional (digits : List Char) (place : Int) : List Char :=
  if place < 0 then
    '0' :: '.' :: List.replicate (-place - 1).toNat '0' ++ digits
  else
    let whole := digits.take (place.toNat + 1)
    let fraction := digits.drop (place.toNat + 1)
    whole ++ List.replicate (place.toNat + 1 - whole.length) '0' ++
      '.' :: (if fraction = [] then ['0'] else fraction)

def scientific (digits : List Char) (place : Int) : List Char :=
  digits.take 1 ++ (if digits.length ≤ 1 then [] else '.' :: digits.drop 1) ++
    'e' :: (toString place).toList

/-- A double as it stands in a report: positional from 1e-4 up to below 1e16. -/
def text (d : Binary64) : String :=
  if d.isNaN then "NaN"
  else
    let body :=
      if d.isInfinite then "inf".toList
      else if d.magnitudeBits = 0 then "0.0".toList
      else
        let (digits, place) := shortest d.magnitudeBits
        if -4 ≤ place ∧ place < 16 then positional digits place else scientific digits place
    String.ofList (if d.isNegative then '-' :: body else body)

end StackedCache.Text.Decimal
