import Mathlib.Algebra.Order.Group.MinMax
import Mathlib.Algebra.Order.Field.Basic
import Mathlib.Data.Rat.Lemmas
import Mathlib.Order.WithBot
import Mathlib.Tactic.FieldSimp
import Mathlib.Tactic.Linarith
import Mathlib.Tactic.NormNum
import Mathlib.Tactic.Ring
import StackedCache.Proofs.Settings

/-!
# Bounds of jittered times

A time to live that is spread by a fraction stays within that fraction of
itself, is never shorter than a second and never longer than the longest
duration. Where sums and products are exact the result is the time that was
meant, to half a nanosecond, and it grows with the time and with the draw.
-/

namespace StackedCache

-- ---------------------------------------------------------------------------
-- Rounding to a whole number
-- ---------------------------------------------------------------------------

/-- The whole number is nearest to the rational one; a tie goes to the even of two. -/
structure IsNearest (x : ℚ) (n : Nat) : Prop where
  near : |(n : ℚ) - x| ≤ 1 / 2
  tie : |(n : ℚ) - x| = 1 / 2 → n % 2 = 0

theorem isNearest_below {x : ℚ} {n : Nat} (h : (n : ℚ) ≤ x) (hhalf : x < n + 1 / 2) : IsNearest x n := by
  have hdistance : |(n : ℚ) - x| < 1 / 2 := by
    rw [abs_of_nonpos (by linarith)]
    linarith
  exact ⟨hdistance.le, fun htie => absurd htie hdistance.ne⟩

theorem isNearest_above {x : ℚ} {n : Nat} (hhalf : n + 1 / 2 < x) (h : x ≤ n + 1) : IsNearest x (n + 1) := by
  have hdistance : |((n + 1 : Nat) : ℚ) - x| < 1 / 2 := by
    rw [Nat.cast_add, Nat.cast_one, abs_of_nonneg (by linarith)]
    linarith
  exact ⟨hdistance.le, fun htie => absurd htie hdistance.ne⟩

theorem isNearest_tie (n : Nat) : IsNearest (n + 1 / 2) (n + n % 2) := by
  refine ⟨?_, fun _ => by omega⟩
  rcases Nat.mod_two_eq_zero_or_one n with heven | hodd
  · rw [heven, Nat.add_zero, abs_of_nonpos (by linarith)]
    linarith
  · rw [hodd, Nat.cast_add, Nat.cast_one, abs_of_nonneg (by linarith)]
    linarith

theorem nearestEven_isNearest (num : Nat) {den : Nat} (hden : 0 < den) :
    IsNearest (num / den) (nearestEven num den) := by
  have hpos : (0 : ℚ) < den := Nat.cast_pos.mpr hden
  have hparts : ((den * (num / den) + num % den : Nat) : ℚ) = num := by rw [Nat.div_add_mod]
  have hvalue : (num : ℚ) / den = (num / den : Nat) + (num % den : Nat) / (den : ℚ) := by
    rw [← hparts]
    push_cast
    field_simp
  have hnonneg : (0 : ℚ) ≤ (num % den : Nat) / (den : ℚ) := div_nonneg (Nat.cast_nonneg _) hpos.le
  have hone : ((num % den : Nat) : ℚ) / den < 1 :=
    (div_lt_one hpos).mpr (Nat.cast_lt.mpr (Nat.mod_lt num hden))
  have hless : ((num % den : Nat) : ℚ) / den < 1 / 2 ↔ 2 * (num % den) < den := by
    rw [div_lt_div_iff₀ hpos two_pos, one_mul, mul_comm]
    exact_mod_cast Iff.rfl
  have hmore : (1 : ℚ) / 2 < (num % den : Nat) / (den : ℚ) ↔ den < 2 * (num % den) := by
    rw [div_lt_div_iff₀ two_pos hpos, one_mul, mul_comm]
    exact_mod_cast Iff.rfl
  unfold nearestEven
  rw [hvalue]
  split
  · rename_i h
    exact isNearest_below (by linarith) (by linarith [hless.mpr h])
  · rename_i hleast
    split
    · rename_i h
      exact isNearest_above (by linarith [hmore.mpr h]) (by linarith)
    · rename_i hmost
      have hhalf : ((num % den : Nat) : ℚ) / den = 1 / 2 :=
        le_antisymm (not_lt.mp (mt hmore.mp hmost)) (not_lt.mp (mt hless.mp hleast))
      rw [hhalf]
      exact isNearest_tie _

theorem IsNearest.mono {x y : ℚ} {m n : Nat} (hm : IsNearest x m) (hn : IsNearest y n) (h : x ≤ y) :
    m ≤ n := by
  by_contra hlt
  rw [not_le] at hlt
  have hstep : (n : ℚ) + 1 ≤ m := by exact_mod_cast hlt
  have hmx := (abs_le.mp hm.near).2
  have hny := (abs_le.mp hn.near).1
  -- Both are as far from the one rational number as can be, and they are neighbours.
  have hmtie : |(m : ℚ) - x| = 1 / 2 := by
    rw [abs_of_nonneg (by linarith)]
    linarith
  have hntie : |(n : ℚ) - y| = 1 / 2 := by
    rw [abs_of_nonpos (by linarith)]
    linarith
  have hnext : (m : ℚ) = n + 1 := by linarith
  have hnext : m = n + 1 := by exact_mod_cast hnext
  have hmeven := hm.tie hmtie
  have hneven := hn.tie hntie
  omega

-- ---------------------------------------------------------------------------
-- Values of doubles
-- ---------------------------------------------------------------------------

abbrev ExtendedRat : Type := WithBot (WithTop ℚ)

def Binary64.value? (d : Binary64) : Option ExtendedRat :=
  if d.isNaN then none
  else if d.isInfinite then some (if d.isNegative then ⊥ else ⊤)
  else some (d.toRat : WithTop ℚ)

namespace Jitter

def Idle (fraction : Binary64) : Prop := ∃ v ∈ fraction.value?, v ≤ 0

/-- The fraction up to one; what is no number counts as one. -/
def width (fraction : Binary64) : ExtendedRat := min (fraction.value?.getD 1) 1

theorem spread?_cases (fraction : Binary64) :
    (Idle fraction ∧ spread? fraction = none) ∨
      ∃ p : ℚ, ¬Idle fraction ∧ spread? fraction = some p ∧ width fraction = (p : WithTop ℚ) ∧
        p ≤ 1 := by
  unfold Idle width spread? Binary64.value?
  by_cases hnan : fraction.isNaN
  · exact .inr ⟨1, by simp [hnan]⟩
  by_cases hinfinite : fraction.isInfinite
  · by_cases hnegative : fraction.isNegative
    · exact .inl (by simp [hnan, hinfinite, hnegative])
    · have htop : (⊤ : ExtendedRat) ≠ 0 := (WithBot.coe_lt_coe.mpr (WithTop.coe_lt_top 0)).ne'
      exact .inr ⟨1, by simp [hnan, hinfinite, hnegative, htop.symm]⟩
  by_cases hpos : fraction.toRat ≤ 0
  · exact .inl (by simp [hnan, hinfinite, hpos])
  · refine .inr ⟨min fraction.toRat 1, ?_, ?_, ?_, min_le_right _ _⟩
    · simp [hnan, hinfinite, hpos]
    · simp [hnan, hinfinite, hpos, min_def]
    · simp [hnan, hinfinite]

-- ---------------------------------------------------------------------------
-- Exact arithmetic
-- ---------------------------------------------------------------------------

theorem ofNanos_eq (n : Nat) : (Duration.ofNanos n).nanos = min n Duration.longest.nanos := by
  unfold Duration.ofNanos Duration.longest
  split <;> simp only <;> omega

theorem seconds_exact (ttl : Duration) : seconds id ttl * 10 ^ 9 = ttl.nanos := by
  have hparts : ((10 ^ 9 * ttl.seconds + ttl.subsecNanos : Nat) : ℚ) = ttl.nanos :=
    congrArg _ (Nat.div_add_mod ttl.nanos (10 ^ 9))
  rw [← hparts]
  simp only [seconds, id, Rat.mkRat_eq_div]
  push_cast
  ring

theorem ofSeconds_nearest {s : ℚ} (h : 0 ≤ s) :
    ∃ n, IsNearest (s * 10 ^ 9) n ∧ (ofSeconds s).nanos = min n Duration.longest.nanos := by
  refine ⟨_, ?_, ofNanos_eq _⟩
  have hnum : ((s.num.natAbs : Nat) : ℚ) = s.num := by
    rw [← Int.cast_natCast, Int.natAbs_of_nonneg (Rat.num_nonneg.mpr h)]
  have hvalue : s * 10 ^ 9 = ((s.num.natAbs * 10 ^ 9 : Nat) : ℚ) / s.den := by
    rw [Nat.cast_mul, hnum, mul_div_right_comm, Rat.num_div_den]
    norm_num
  rw [hvalue]
  exact nearestEven_isNearest _ s.den_pos

/-- The nanoseconds of a time to live times a factor, at least a second. -/
def stretched (ttl : Duration) (factor : ℚ) : ℚ := max shortest.nanos (ttl.nanos * factor)

/-- The nanoseconds that are meant: no more than a duration can have. -/
def meant (ttl : Duration) (factor : ℚ) : ℚ := min (stretched ttl factor) Duration.longest.nanos

theorem scale_nearest (ttl : Duration) (delta : ℚ) :
    ∃ n, IsNearest (stretched ttl (1 + delta)) n ∧
      (scale id ttl delta).nanos = min n Duration.longest.nanos := by
  have hvalue : stretched ttl (1 + delta) = max (seconds id ttl * (1 + delta)) 1 * 10 ^ 9 := by
    rw [max_mul_of_nonneg _ _ (by positivity), mul_right_comm, seconds_exact, max_comm]
    norm_num [stretched, shortest]
  have hscale : scale id ttl delta = ofSeconds (max (seconds id ttl * (1 + delta)) 1) := by
    simp only [scale, id, max_def]
  rw [hvalue, hscale]
  exact ofSeconds_nearest (zero_le_one.trans (le_max_right _ _))

theorem scale_near (ttl : Duration) (delta : ℚ) :
    |((scale id ttl delta).nanos : ℚ) - meant ttl (1 + delta)| ≤ 1 / 2 := by
  obtain ⟨n, hnearest, hnanos⟩ := scale_nearest ttl delta
  rw [hnanos, Nat.cast_min, meant]
  calc _ ≤ max |(n : ℚ) - stretched ttl (1 + delta)| |(Duration.longest.nanos : ℚ) - Duration.longest.nanos| :=
        abs_min_sub_min_le_max ..
    _ ≤ 1 / 2 := by
        rw [sub_self, abs_zero]
        exact max_le hnearest.near (by norm_num)

theorem scale_mono {ttl ttl' : Duration} {delta delta' : ℚ}
    (h : ttl.nanos * (1 + delta) ≤ ttl'.nanos * (1 + delta')) :
    (scale id ttl delta).nanos ≤ (scale id ttl' delta').nanos := by
  obtain ⟨n, hnearest, hnanos⟩ := scale_nearest ttl delta
  obtain ⟨n', hnearest', hnanos'⟩ := scale_nearest ttl' delta'
  rw [hnanos, hnanos']
  exact min_le_min_right _ (hnearest.mono hnearest' (max_le_max_left _ h))

theorem meant_mono (ttl : Duration) {factor factor' : ℚ} (h : factor ≤ factor') :
    meant ttl factor ≤ meant ttl factor' :=
  min_le_min_right _ (max_le_max_left _ (mul_le_mul_of_nonneg_left h (Nat.cast_nonneg _)))

-- ---------------------------------------------------------------------------
-- Jitter
-- ---------------------------------------------------------------------------

theorem idle_iff {fraction : Binary64} : Idle fraction ↔ spread? fraction = none := by
  rcases spread?_cases fraction with ⟨hidle, hspread⟩ | ⟨p, hbusy, hspread, -⟩
  · simp [hidle, hspread]
  · simp [hbusy, hspread]

theorem apply_idle {fraction : Binary64} (h : Idle fraction) (round : ℚ → ℚ) (ttl : Duration) (delta : ℚ) :
    apply round fraction ttl delta = ttl := by
  simp [apply, idle_iff.mp h]

theorem apply_spread {fraction : Binary64} {p : ℚ} (h : spread? fraction = some p) (round : ℚ → ℚ)
    (ttl : Duration) (delta : ℚ) : apply round fraction ttl delta = scale round ttl delta := by
  simp [apply, h]

/-- The fraction says how far a time to live may be off. A time that is not to be spread stays
as it is; one that is stays within its bounds, and a longer one or a larger draw never gives
a shorter result. -/
theorem jitter_bounded (fraction : Binary64) :
    (Idle fraction → ∀ round ttl delta, apply round fraction ttl delta = ttl) ∧
    (¬Idle fraction → ∃ p : ℚ, width fraction = (p : WithTop ℚ) ∧ spread? fraction = some p ∧
      (∀ round ttl delta, shortest.nanos ≤ (apply round fraction ttl delta).nanos) ∧
      (∀ ttl delta, |delta| ≤ p →
        meant ttl (1 - p) - 1 ≤ (apply id fraction ttl delta).nanos ∧
        (apply id fraction ttl delta).nanos ≤ meant ttl (1 + p) + 1 ∧
        |((apply id fraction ttl delta).nanos : ℚ) - meant ttl (1 + delta)| ≤ 1 / 2) ∧
      (∀ ttl ttl' delta, |delta| ≤ p → ttl.nanos ≤ ttl'.nanos →
        (apply id fraction ttl delta).nanos ≤ (apply id fraction ttl' delta).nanos) ∧
      ∀ ttl delta delta', |delta| ≤ p → |delta'| ≤ p → delta ≤ delta' →
        (apply id fraction ttl delta).nanos ≤ (apply id fraction ttl delta').nanos) := by
  constructor
  · intro hidle round ttl delta
    exact apply_idle hidle round ttl delta
  intro hbusy
  rcases spread?_cases fraction with ⟨hidle, -⟩ | ⟨p, -, hspread, hwidth, hone⟩
  · exact absurd hidle hbusy
  refine ⟨p, hwidth, hspread, ?_, ?_, ?_, ?_⟩
  · intro round ttl delta
    rw [apply_spread hspread]
    exact shortest_le_scale round ttl delta
  · intro ttl delta hdelta
    obtain ⟨hleast, hmost⟩ := abs_le.mp hdelta
    have hnear := scale_near ttl delta
    obtain ⟨hbelow, habove⟩ := abs_le.mp hnear
    have hlower : meant ttl (1 - p) ≤ meant ttl (1 + delta) := meant_mono ttl (by linarith)
    have hupper : meant ttl (1 + delta) ≤ meant ttl (1 + p) := meant_mono ttl (by linarith)
    rw [apply_spread hspread]
    exact ⟨by linarith, by linarith, hnear⟩
  · intro ttl ttl' delta hdelta hle
    have hfactor : 0 ≤ 1 + delta := by linarith [(abs_le.mp hdelta).1]
    rw [apply_spread hspread, apply_spread hspread]
    exact scale_mono (mul_le_mul_of_nonneg_right (Nat.cast_le.mpr hle) hfactor)
  · intro ttl delta delta' _ _ hle
    rw [apply_spread hspread, apply_spread hspread]
    exact scale_mono (mul_le_mul_of_nonneg_left (by linarith) (Nat.cast_nonneg _))

/-- A fraction of zero spreads nothing. A fraction of one may take the longest time to live down
to a second, and nothing up to twice its length. -/
theorem jitter_bounded_widest :
    (Idle ⟨0⟩ ∧ apply id ⟨0⟩ .zero 1 = .zero) ∧
    ¬Idle ⟨0x3ff0000000000000⟩ ∧
      meant .longest (1 - 1) - 1 ≤ (apply id ⟨0x3ff0000000000000⟩ .longest (-1)).nanos ∧
      (apply id ⟨0x3ff0000000000000⟩ .longest (-1)).nanos ≤ meant .longest (1 + 1) + 1 ∧
      (apply id ⟨0x3ff0000000000000⟩ .zero 1).nanos ≤ (apply id ⟨0x3ff0000000000000⟩ .longest 1).nanos ∧
      (apply id ⟨0x3ff0000000000000⟩ .longest (-1)).nanos ≤
        (apply id ⟨0x3ff0000000000000⟩ .longest 1).nanos := by
  have hzero : Idle ⟨0⟩ := idle_iff.mpr (by decide +kernel)
  have hone : spread? ⟨0x3ff0000000000000⟩ = some 1 := by decide +kernel
  have hbusy : ¬Idle ⟨0x3ff0000000000000⟩ := by simp [idle_iff, hone]
  obtain ⟨p, -, hspread, -, hbounds, hlonger, hlarger⟩ := (jitter_bounded ⟨0x3ff0000000000000⟩).2 hbusy
  obtain rfl : 1 = p := Option.some.inj (hone.symm.trans hspread)
  obtain ⟨hleast, hmost, -⟩ := hbounds .longest (-1) (by norm_num)
  refine ⟨⟨hzero, (jitter_bounded ⟨0⟩).1 hzero id .zero 1⟩, hbusy, hleast, hmost, ?_, ?_⟩
  · exact hlonger .zero .longest 1 (by norm_num) (by decide)
  · exact hlarger .longest (-1) 1 (by norm_num) (by norm_num) (by norm_num)

end Jitter

end StackedCache
