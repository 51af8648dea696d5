import Mathlib.Algebra.Order.Floor.Div
import Mathlib.Data.Rat.Cast.Order
import Mathlib.Tactic.FieldSimp
import Mathlib.Tactic.Linarith
import AegisCognition.Foundation.Machine

/-!
# Rounded division under a bound

A division that rounds up adds the divisor less one before it divides. Where that sum is cut off
at a bound, the quotient is rounded up only for dividends up to the last multiple of the divisor
below the bound, and no quotient is larger than that of this multiple. A sum of two such quotients
is large enough if neither is cut off, or if one is and what it loses is made up by the other.
-/

namespace Aegis.Foundation

variable {bound value divisor : Nat}

/-- No multiple of the divisor under the bound is as large as the dividend. -/
def Clips (bound value divisor : Nat) : Prop :=
  divisor * (bound / divisor) < value

instance : Decidable (Clips bound value divisor) :=
  inferInstanceAs (Decidable (_ < _))

/-- The quotient, rounded up to a multiple that is under the bound. -/
def roundedQuotient (bound value divisor : Nat) : Nat :=
  if Clips bound value divisor then bound / divisor else value ⌈/⌉ divisor

/-- What a dividend loses that is cut off. -/
def lost (bound value divisor : Nat) : Nat :=
  value - divisor * (bound / divisor)

/-- What a dividend gains that is rounded up. -/
def gained (value divisor : Nat) : Nat :=
  divisor * (value ⌈/⌉ divisor) - value

@[simp] theorem roundedQuotient_zero : roundedQuotient bound 0 divisor = 0 := by
  have fits : ¬ Clips bound 0 divisor := Nat.not_lt_zero _
  rw [roundedQuotient, if_neg fits, zero_ceilDiv]

theorem mul_roundedQuotient_of_clips (clips : Clips bound value divisor) :
    divisor * roundedQuotient bound value divisor + lost bound value divisor = value := by
  rw [roundedQuotient, if_pos clips, lost]
  rw [Clips] at clips
  omega

theorem mul_roundedQuotient_of_not_clips (positive : 0 < divisor)
    (fits : ¬ Clips bound value divisor) :
    divisor * roundedQuotient bound value divisor = value + gained value divisor := by
  have up : value ≤ divisor * (value ⌈/⌉ divisor) := le_smul_ceilDiv positive
  rw [roundedQuotient, if_neg fits, gained]
  omega

/-- The sum that is divided stops at the bound exactly where the quotient is cut off or the
dividend is at most the last multiple all the same. -/
theorem saturatingAdd_div (positive : 0 < divisor) :
    saturatingAdd bound value (divisor - 1) / divisor = roundedQuotient bound value divisor := by
  have below : divisor * (bound / divisor) ≤ bound := Nat.mul_div_le bound divisor
  have above : bound < divisor * (bound / divisor) + divisor := Nat.lt_mul_div_succ bound positive
  rw [saturatingAdd, roundedQuotient]
  by_cases clips : Clips bound value divisor
  · rw [if_pos clips]
    rw [Clips] at clips
    have stops : min (value + (divisor - 1)) bound = bound := by omega
    rw [stops]
  · rw [if_neg clips, Nat.ceilDiv_eq_add_pred_div]
    rw [Clips, Nat.not_lt] at clips
    by_cases fits : value + (divisor - 1) ≤ bound
    · rw [Nat.min_eq_left fits]
      congr 1
      omega
    · rw [Nat.min_eq_right (by omega)]
      symm
      apply Nat.div_eq_of_lt_le
      · rw [Nat.mul_comm]
        omega
      · rw [Nat.mul_comm, Nat.mul_succ]
        omega

theorem roundedQuotient_min (positive : 0 < divisor) :
    roundedQuotient bound (min value bound) divisor = roundedQuotient bound value divisor := by
  rw [← saturatingAdd_div positive, ← saturatingAdd_div positive, saturatingAdd, saturatingAdd]
  congr 1
  omega

theorem lost_pos (clips : Clips bound value divisor) : 0 < lost bound value divisor :=
  Nat.sub_pos_of_lt clips

/-- What one of two quotients loses is made up by the other. -/
structure Covered (bound first firstDivisor second secondDivisor : Nat) : Prop where
  ofFirst : Clips bound first firstDivisor → ¬ Clips bound second secondDivisor ∧
    lost bound first firstDivisor * secondDivisor ≤ gained second secondDivisor * firstDivisor
  ofSecond : Clips bound second secondDivisor → ¬ Clips bound first firstDivisor ∧
    lost bound second secondDivisor * firstDivisor ≤ gained first firstDivisor * secondDivisor

/-- The sum of two rounded quotients is at least that of the exact ones if and only if neither is
cut off, or what one loses is made up by the other. -/
theorem add_div_le_iff_covered {first firstDivisor second secondDivisor : Nat}
    (positive : 0 < firstDivisor) (positive' : 0 < secondDivisor) :
    (first / firstDivisor + second / secondDivisor : ℚ) ≤
        roundedQuotient bound first firstDivisor + roundedQuotient bound second secondDivisor ↔
      Covered bound first firstDivisor second secondDivisor := by
  have cleared : (first / firstDivisor + second / secondDivisor : ℚ) ≤
      roundedQuotient bound first firstDivisor + roundedQuotient bound second secondDivisor ↔
      first * secondDivisor + second * firstDivisor ≤
        firstDivisor * roundedQuotient bound first firstDivisor * secondDivisor +
          secondDivisor * roundedQuotient bound second secondDivisor * firstDivisor := by
    have nonzero : (firstDivisor : ℚ) ≠ 0 := by positivity
    have nonzero' : (secondDivisor : ℚ) ≠ 0 := by positivity
    rw [div_add_div _ _ nonzero nonzero', div_le_iff₀ (by positivity)]
    rw [← Nat.cast_le (α := ℚ)]
    push_cast
    constructor <;> intro h <;> linarith
  rw [cleared]
  by_cases clips : Clips bound first firstDivisor
  · have loses := mul_roundedQuotient_of_clips clips
    have some_lost := Nat.mul_pos (lost_pos clips) positive'
    by_cases clips' : Clips bound second secondDivisor
    · have loses' := mul_roundedQuotient_of_clips clips'
      refine iff_of_false ?_ fun covered => (covered.ofFirst clips).1 clips'
      nth_rewrite 1 [← loses, ← loses']
      rw [Nat.add_mul, Nat.add_mul]
      omega
    · have gains := mul_roundedQuotient_of_not_clips positive' clips'
      have sums : first * secondDivisor + second * firstDivisor ≤
          firstDivisor * roundedQuotient bound first firstDivisor * secondDivisor +
            secondDivisor * roundedQuotient bound second secondDivisor * firstDivisor ↔
          lost bound first firstDivisor * secondDivisor ≤
            gained second secondDivisor * firstDivisor := by
        nth_rewrite 1 [← loses]
        rw [gains, Nat.add_mul, Nat.add_mul]
        omega
      rw [sums]
      exact ⟨fun covers => ⟨fun _ => ⟨clips', covers⟩, fun other => absurd other clips'⟩,
        fun covered => (covered.ofFirst clips).2⟩
  · have gains := mul_roundedQuotient_of_not_clips positive clips
    by_cases clips' : Clips bound second secondDivisor
    · have loses := mul_roundedQuotient_of_clips clips'
      have sums : first * secondDivisor + second * firstDivisor ≤
          firstDivisor * roundedQuotient bound first firstDivisor * secondDivisor +
            secondDivisor * roundedQuotient bound second secondDivisor * firstDivisor ↔
          lost bound second secondDivisor * firstDivisor ≤
            gained first firstDivisor * secondDivisor := by
        nth_rewrite 1 [← loses]
        rw [gains, Nat.add_mul, Nat.add_mul]
        omega
      rw [sums]
      exact ⟨fun covers => ⟨fun other => absurd other clips, fun _ => ⟨clips, covers⟩⟩,
        fun covered => (covered.ofSecond clips').2⟩
    · have gains' := mul_roundedQuotient_of_not_clips positive' clips'
      refine iff_of_true ?_ ⟨fun other => absurd other clips, fun other => absurd other clips'⟩
      rw [gains, gains', Nat.add_mul, Nat.add_mul]
      omega

end Aegis.Foundation
