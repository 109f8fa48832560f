import StackedCache.Binary64

/-!
# Lengths of time and instants

Time is counted in nanoseconds. A duration has at most 2⁶⁴ - 1 whole seconds;
the monotonic clock can hold readings of at most 2⁶³ - 1 whole seconds, so a
deadline may lie past everything that the clock can show.

Entries written together should not expire together, so a time to live is
spread by a random factor close to one. The arithmetic takes its rounding as a
parameter: double precision where it runs, none where it is reasoned about.
-/

namespace StackedCache

structure Duration where
  nanos : Nat
  bounded : nanos < 2 ^ 64 * 10 ^ 9 := by decide
  deriving DecidableEq

namespace Duration

def zero : Duration := ⟨0, by decide⟩

instance : Inhabited Duration := ⟨zero⟩

def longest : Duration := ⟨2 ^ 64 * 10 ^ 9 - 1, by decide⟩

/-- The longest duration stands for everything longer. -/
def ofNanos (n : Nat) : Duration :=
  if h : n < 2 ^ 64 * 10 ^ 9 then ⟨n, h⟩ else longest

def ofMillis (ms : UInt64) : Duration :=
  ⟨ms.toNat * 10 ^ 6, by have := ms.toNat_lt; omega⟩

def ofSeconds (s : UInt64) : Duration :=
  ⟨s.toNat * 10 ^ 9, by have := s.toNat_lt; omega⟩

def isZero (d : Duration) : Bool := d.nanos == 0

def millis (d : Duration) : Nat := d.nanos / 10 ^ 6

def seconds (d : Duration) : Nat := d.nanos / 10 ^ 9

def subsecNanos (d : Duration) : Nat := d.nanos % 10 ^ 9

/-- The first of two that is not zero, or the second. -/
def orElse (d other : Duration) : Duration := if d.isZero then other else d

def decimalText (n places : Nat) : String :=
  let digits := toString (n % 10 ^ places)
  let padded := List.replicate (places - digits.length) '0' ++ digits.toList
  let kept := (padded.reverse.dropWhile (· == '0')).reverse
  toString (n / 10 ^ places) ++ if kept.isEmpty then "" else "." ++ String.ofList kept

/-- An exact decimal in the largest of the units s, ms, µs and ns of which there is at least one. -/
def text (d : Duration) : String :=
  if 10 ^ 9 ≤ d.nanos then decimalText d.nanos 9 ++ "s"
  else if 10 ^ 6 ≤ d.nanos then decimalText d.nanos 6 ++ "ms"
  else if 10 ^ 3 ≤ d.nanos then decimalText d.nanos 3 ++ "µs"
  else toString d.nanos ++ "ns"

end Duration

abbrev Instant := Nat

namespace Instant

def horizon : Instant := 2 ^ 63 * 10 ^ 9

/-- The instant `d` after `now`, unless the clock cannot hold it. -/
def after? (now : Instant) (d : Duration) : Option Instant :=
  if now + d.nanos < horizon then some (now + d.nanos) else none

def floorMillis (t : Instant) : Nat := t / 10 ^ 6

def ceilMillis (t : Instant) : Nat := (t + (10 ^ 6 - 1)) / 10 ^ 6

/-- Timers have a resolution of one millisecond: a timer set to `deadline` fires at the
first whole millisecond not before it. -/
def reached (now deadline : Instant) : Bool := deadline.ceilMillis ≤ now.floorMillis

end Instant

-- ---------------------------------------------------------------------------
-- Jitter
-- ---------------------------------------------------------------------------

namespace Jitter

def shortest : Duration := ⟨10 ^ 9, by decide⟩

/-- How far from one the factor may go, or nothing when the fraction asks for no jitter.
More than one, and what is no number, count as one. -/
def spread? (fraction : Binary64) : Option Rat :=
  if fraction.isNaN then some 1
  else if fraction.isInfinite then if fraction.isNegative then none else some 1
  else if fraction.toRat ≤ 0 then none
  else some (if fraction.toRat ≤ 1 then fraction.toRat else 1)

def ofSeconds (seconds : Rat) : Duration :=
  .ofNanos (nearestEven (seconds.num.natAbs * 10 ^ 9) seconds.den)

def seconds (round : Rat → Rat) (ttl : Duration) : Rat :=
  round (round ttl.seconds + round (mkRat ttl.subsecNanos (10 ^ 9)))

/-- The time to live times `1 + delta`, at least the shortest one. -/
def scale (round : Rat → Rat) (ttl : Duration) (delta : Rat) : Duration :=
  let adjusted := round (seconds round ttl * round (1 + delta))
  ofSeconds (if adjusted ≤ 1 then 1 else adjusted)

def apply (round : Rat → Rat) (fraction : Binary64) (ttl : Duration) (delta : Rat) : Duration :=
  match spread? fraction with
  | none => ttl
  | some _ => scale round ttl delta

end Jitter

end StackedCache
