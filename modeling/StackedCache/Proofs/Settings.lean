import StackedCache.Cache.Stack

/-!
# Settings of a stack

What a configuration guarantees for the stack that is built from it. A jittered
time to live is never shorter than the shortest one, so it is never zero, which
would stand for no deadline at all.
-/

namespace StackedCache

-- ---------------------------------------------------------------------------
-- Jitter
-- ---------------------------------------------------------------------------

theorem le_nearestEven {n num den : Nat} (hden : 0 < den) (h : n * den ≤ num) :
    n ≤ nearestEven num den := by
  have hquotient : n ≤ num / den := (Nat.le_div_iff_mul_le hden).mpr h
  unfold nearestEven
  split
  · exact hquotient
  · split <;> omega

namespace Jitter

theorem shortest_le_ofSeconds {seconds : Rat} (h : 1 ≤ seconds) :
    shortest.nanos ≤ (ofSeconds seconds).nanos := by
  have hnum : seconds.den ≤ seconds.num.natAbs := by
    rw [Rat.le_iff] at h
    simp only [Rat.num_ofNat, Rat.den_ofNat] at h
    omega
  have hround : 10 ^ 9 ≤ nearestEven (seconds.num.natAbs * 10 ^ 9) seconds.den :=
    le_nearestEven seconds.den_pos (by omega)
  unfold ofSeconds Duration.ofNanos
  split
  · exact hround
  · decide

theorem shortest_le_scale (round : Rat → Rat) (ttl : Duration) (delta : Rat) :
    shortest.nanos ≤ (scale round ttl delta).nanos := by
  refine shortest_le_ofSeconds ?_
  split
  · exact Rat.le_refl
  · rename_i h
    exact Rat.le_of_lt (Rat.not_le.mp h)

theorem scale_isZero (round : Rat → Rat) (ttl : Duration) (delta : Rat) :
    (scale round ttl delta).isZero = false := by
  have hshortest := shortest_le_scale round ttl delta
  have hpos : 0 < shortest.nanos := by decide
  simp only [Duration.isZero, beq_eq_false_iff_ne, ne_eq]
  omega

theorem spread_eq_none {fraction : Binary64} (hunit : fraction.inUnitInterval = true)
    (hzero : fraction.toRat = 0) : spread? fraction = none := by
  simp only [Binary64.inUnitInterval, Bool.and_eq_true, Bool.not_eq_true'] at hunit
  obtain ⟨⟨⟨hnan, hinfinite⟩, -⟩, -⟩ := hunit
  simp [spread?, hnan, hinfinite, hzero]

end Jitter

-- ---------------------------------------------------------------------------
-- Stacks
-- ---------------------------------------------------------------------------

/-- There are layers, and every write has a deadline. -/
structure Stack.Usable (stack : Stack) : Prop where
  layered : stack.tiers ≠ []
  lasting : stack.settings.defaultTtl.isZero = false
  marking : stack.settings.negativeTtl.isZero = false

theorem Duration.isZero_orElse {d other : Duration} (h : other.isZero = false) :
    (d.orElse other).isZero = false := by
  unfold orElse
  cases hd : d.isZero with
  | false => simpa using hd
  | true => simpa using h

theorem Duration.orElse_of_lasting {d other : Duration} (h : d.isZero = false) :
    d.orElse other = d := by
  simp [orElse, h]

theorem Duration.ofMillis_isZero {ms : UInt64} (h : ms ≠ 0) : (ofMillis ms).isZero = false := by
  have hpos : ms.toNat ≠ 0 := fun hz => h (UInt64.toNat_inj.mp hz)
  simp only [isZero, ofMillis, beq_eq_false_iff_ne, ne_eq]
  omega

theorem Stack.build_usable {config : CacheConfig} {layers : List (String × Bool)} {stack : Stack}
    (h : Stack.build config layers = .ok stack) (hdefault : config.defaultTtlMs ≠ 0) :
    stack.Usable ∧ stack.settings = config.settings := by
  unfold build at h
  split at h
  · cases h
  · rename_i hlayers
    split at h
    · cases h
    · cases h
      refine ⟨⟨?_, Duration.ofMillis_isZero hdefault, ?_⟩, rfl⟩
      · simpa using hlayers
      · refine Duration.ofMillis_isZero ?_
        split
        · decide
        · assumption

theorem Stack.build_jitter {config : CacheConfig} {layers : List (String × Bool)} {stack : Stack}
    (h : Stack.build config layers = .ok stack) : config.jitter.inUnitInterval = true := by
  unfold build at h
  split at h
  · cases h
  · split at h
    · cases h
    · rename_i hjitter
      simpa using hjitter

theorem Stack.fullKey_inj {stack : Stack} {key key' : String} :
    stack.fullKey key = stack.fullKey key' ↔ key = key' :=
  String.append_right_inj _

def Stack.lowest? (stack : Stack) : Option Nat := stack.tiers.getLast?.map Tier.slot

theorem Stack.lowest_of_suffix {stack : Stack} {tier : Tier} (h : [tier] <:+ stack.tiers) :
    stack.lowest? = some tier.slot := by
  obtain ⟨above, habove⟩ := h
  simp [Stack.lowest?, ← habove]

end StackedCache
