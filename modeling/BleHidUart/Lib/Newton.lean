import Mathlib.Algebra.Order.Field.Basic
import Mathlib.Tactic.FieldSimp
import Mathlib.Tactic.Linarith
import Mathlib.Tactic.Positivity
import Mathlib.Tactic.Ring

/-!
# Newton's iteration for the square root

Over any ordered field, without the square root itself: `Near ε x y` says that `y ^ 2` is `x` up to
the relative error `ε`. A step never ends below the root, and turns the error `ε` into
`ε ^ 2 / (4 * (1 - ε))`.
-/

namespace BleHidUart.Lib.Newton

variable {K : Type*} [Field K] [LinearOrder K] [IsStrictOrderedRing K] {ε x y : K}

/-- One step. -/
def sqrtStep (x y : K) : K := (y + x / y) / 2

/-- `y` is a square root of `x`, up to the relative error `ε` of the square. -/
def Near (ε x y : K) : Prop := 0 < y ∧ |y ^ 2 - x| ≤ ε * x

theorem sqrtStep_pos (hx : 0 < x) (hy : 0 < y) : 0 < sqrtStep x y := by
  unfold sqrtStep
  positivity

/-- The error of the square after a step is a square. -/
theorem sq_sqrtStep_sub (x : K) (hy : y ≠ 0) :
    sqrtStep x y ^ 2 - x = ((y ^ 2 - x) / (2 * y)) ^ 2 := by
  unfold sqrtStep
  field_simp
  ring

theorem le_sq_sqrtStep (x : K) (hy : y ≠ 0) : x ≤ sqrtStep x y ^ 2 := by
  have h := sq_sqrtStep_sub x hy
  have hnn : 0 ≤ ((y ^ 2 - x) / (2 * y)) ^ 2 := sq_nonneg _
  linarith

/-- **The error is squared.** -/
theorem Near.step (h : Near ε x y) (hx : 0 < x) (hε : ε < 1) :
    Near (ε ^ 2 / (4 * (1 - ε))) x (sqrtStep x y) := by
  obtain ⟨hy, hnear⟩ := h
  have hlow : (1 - ε) * x ≤ y ^ 2 := by
    have := neg_le_of_abs_le hnear
    linarith
  have hpos : 0 < (1 - ε) * x := mul_pos (by linarith) hx
  refine ⟨sqrtStep_pos hx hy, ?_⟩
  rw [sq_sqrtStep_sub x hy.ne', abs_of_nonneg (sq_nonneg _), div_pow, mul_pow, ← sq_abs]
  have hsq : |y ^ 2 - x| ^ 2 ≤ (ε * x) ^ 2 := pow_le_pow_left₀ (abs_nonneg _) hnear 2
  calc |y ^ 2 - x| ^ 2 / (2 ^ 2 * y ^ 2)
      ≤ (ε * x) ^ 2 / (2 ^ 2 * ((1 - ε) * x)) := by
        apply div_le_div₀ (sq_nonneg _) hsq (by positivity)
        exact mul_le_mul_of_nonneg_left hlow (by norm_num)
    _ = ε ^ 2 / (4 * (1 - ε)) * x := by
        have h1 : 1 - ε ≠ 0 := by linarith
        field_simp
        ring

theorem Near.mono {δ : K} (h : Near ε x y) (hx : 0 < x) (hle : ε ≤ δ) : Near δ x y :=
  ⟨h.1, h.2.trans (mul_le_mul_of_nonneg_right hle hx.le)⟩

end BleHidUart.Lib.Newton
