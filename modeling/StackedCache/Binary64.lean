/-!
# Double precision numbers

A double is its 64 bits; its value is read off exactly as a rational, and an
exact rational is rounded to the nearest double, a tie going to the even one.
Sums, products and quotients of doubles are exact operations followed by that
rounding.
-/

-- Powers of numbers are the core ones, also where a library adds others.
attribute [instance (1100), default_instance 20000] instPowNat

namespace StackedCache

def nearestEven (num den : Nat) : Nat :=
  if 2 * (num % den) < den then num / den
  else if den < 2 * (num % den) then num / den + 1
  else num / den + num / den % 2

structure Binary64 where
  bits : UInt64
  deriving DecidableEq, Inhabited

namespace Binary64

def isNegative (d : Binary64) : Bool := 2 ^ 63 ≤ d.bits.toNat

def magnitudeBits (d : Binary64) : Nat := d.bits.toNat % 2 ^ 63

def infinityBits : Nat := 0x7ff0000000000000

def isNaN (d : Binary64) : Bool := infinityBits < d.magnitudeBits

def isInfinite (d : Binary64) : Bool := d.magnitudeBits == infinityBits

def magnitude (m : Nat) : Rat :=
  if m < 2 ^ 52 then mkRat m (2 ^ 1074)
  else
    let significand : Nat := m % 2 ^ 52 + 2 ^ 52
    let exponent : Nat := m / 2 ^ 52
    if exponent < 1075 then mkRat significand (2 ^ (1075 - exponent))
    else mkRat (significand * 2 ^ (exponent - 1075) : Nat) 1

def toRat (d : Binary64) : Rat :=
  if d.isNegative then -magnitude d.magnitudeBits else magnitude d.magnitudeBits

/-- Whether the positive quotient reaches the power of two that its operands' sizes suggest. -/
def reachesPower (num den : Nat) : Bool :=
  if num.log2 < den.log2 then den ≤ num * 2 ^ (den.log2 - num.log2)
  else den * 2 ^ (num.log2 - den.log2) ≤ num

def gridExponent (num den : Nat) : Nat :=
  if reachesPower num den then num.log2 + 1022 - den.log2 else num.log2 + 1021 - den.log2

/-- The bits of the double nearest to the quotient; they pass `infinityBits` on overflow. -/
def roundedBits (num den : Nat) : Nat :=
  if num = 0 then 0 else
  let e := gridExponent num den
  let q := if e < 1074 then nearestEven (num * 2 ^ (1074 - e)) den
    else nearestEven num (den * 2 ^ (e - 1074))
  e * 2 ^ 52 + q

def ofQuotient (negative : Bool) (num den : Nat) : Binary64 :=
  let m := min (roundedBits num den) infinityBits
  ⟨UInt64.ofNat (if negative then 2 ^ 63 + m else m)⟩

def ofRat (r : Rat) : Binary64 := ofQuotient (r < 0) r.num.natAbs r.den

def infinity (negative : Bool) : Binary64 :=
  ⟨UInt64.ofNat (if negative then 2 ^ 63 + infinityBits else infinityBits)⟩

def nan (negative : Bool) : Binary64 := ⟨if negative then 0xfff8000000000000 else 0x7ff8000000000000⟩

def ofNat (n : Nat) : Binary64 := ofRat n

def round (r : Rat) : Rat := (ofRat r).toRat

def div (a b : Binary64) : Binary64 := ofRat (a.toRat / b.toRat)

/-- Whether the number lies in the unit interval. Negative zero does, what is no number does not. -/
def inUnitInterval (d : Binary64) : Bool :=
  !d.isNaN && !d.isInfinite && 0 ≤ d.toRat && d.toRat ≤ 1

end Binary64

end StackedCache
