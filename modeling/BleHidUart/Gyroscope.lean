import Mathlib.Algebra.Order.Field.Rat
import Mathlib.Tactic.Linarith
import Mathlib.Tactic.Positivity
import Mathlib.Tactic.NormNum
import Mathlib.Tactic.Ring

/-!
# The arctangent of the attitude solver

`IMUupdate` turns the quaternion into the yaw angle with `atan2f_approx`, a polynomial of degree
nine on `|y / x| ≤ 1`, the same polynomial of the reciprocal outside, and a correction by the
quadrant. The arithmetic is read over the exact rationals, with the coefficients of the source.

The two slopes of opposite sign are compared in `atanApprox_add_neg`: they cancel on the
polynomial branch, and outside they leave twice the polynomial of the reciprocal, since the sign
correction is applied to a value that already carries the sign of `1 / z`.
-/

namespace BleHidUart.Gyroscope

/-! ### The source -/

/-- The polynomial in the square of the slope, both branches of `atan2f_approx` write it out. -/
def atanPoly (z2 : ℚ) : ℚ :=
  0.9998660 + z2 * (-0.3302995 + z2 * (0.1801410 + z2 * (-0.0851330 + z2 * 0.0208351)))

/-- The variable `atan` of `atan2f_approx`, before the quadrant is corrected. -/
def atanApprox (z : ℚ) : ℚ :=
  let absZ := if z < 0 then -z else z
  if absZ ≤ 1 then
    let z2 := z * z
    z * atanPoly z2
  else
    let inv := 1 / z
    let inv2 := inv * inv
    let atan := 1.57079633 - inv * atanPoly inv2
    if z < 0 then -atan else atan

/-- `atan2f_approx`. -/
def atan2fApprox (y x : ℚ) : ℚ :=
  if x = 0 then
    if 0 < y then 1.57079633 else if y < 0 then -1.57079633 else 0
  else
    let z := y / x
    let atan := atanApprox z
    if x < 0 then atan + (if 0 ≤ y then 3.14159265 else -3.14159265) else atan

/-- `Q_ANGLE_Z`, the yaw angle `IMUupdate` computes from the normalised quaternion. -/
def qAngleZ (q0 q1 q2 q3 : ℚ) : ℚ :=
  atan2fApprox (2 * q1 * q2 - 2 * q0 * q3) (-2 * q2 * q2 - 2 * q3 * q3 + 1) * 57.3

/-! ### One slope and its mirror image -/

theorem atanPoly_pos {t : ℚ} (h0 : 0 ≤ t) (h1 : t ≤ 1) : 0 < atanPoly t := by
  have h3 : 0 ≤ 0.1801410 + t * (-0.0851330 + t * 0.0208351) := by
    nlinarith [mul_nonneg h0 h0]
  have h2 := mul_nonneg h0 h3
  unfold atanPoly
  nlinarith [mul_nonneg h0 h2]

theorem absZ_eq (z : ℚ) : (if z < 0 then -z else z) = |z| := by
  rcases lt_or_ge z 0 with h | h
  · rw [if_pos h, abs_of_neg h]
  · rw [if_neg (not_lt.mpr h), abs_of_nonneg h]

theorem atanApprox_inside {z : ℚ} (h : |z| ≤ 1) : atanApprox z = z * atanPoly (z * z) := by
  simp only [atanApprox, absZ_eq, if_pos h]

theorem atanApprox_outside {z : ℚ} (h : 1 < |z|) :
    atanApprox z = if z < 0 then -(1.57079633 - 1 / z * atanPoly (1 / z * (1 / z)))
      else 1.57079633 - 1 / z * atanPoly (1 / z * (1 / z)) := by
  simp only [atanApprox, absZ_eq, if_neg (not_le.mpr h)]

theorem atanApprox_add_neg_inside {z : ℚ} (h : |z| ≤ 1) : atanApprox (-z) + atanApprox z = 0 := by
  have h' : |-z| ≤ 1 := by rwa [abs_neg]
  rw [atanApprox_inside h, atanApprox_inside h', neg_mul_neg]
  ring

theorem atanApprox_add_neg_outside {z : ℚ} (h : 1 < |z|) :
    atanApprox (-z) + atanApprox z = -2 * (1 / |z| * atanPoly (1 / z * (1 / z))) := by
  have h' : 1 < |-z| := by rwa [abs_neg]
  have hinv : 1 / -z = -(1 / z) := one_div_neg_eq_neg_one_div z
  rw [atanApprox_outside h, atanApprox_outside h', hinv, neg_mul_neg]
  rcases lt_trichotomy z 0 with hz | rfl | hz
  · rw [if_neg (by linarith), if_pos hz, abs_of_neg hz, hinv]
    ring
  · norm_num at h
  · rw [if_pos (by linarith), if_neg (by linarith), abs_of_pos hz]
    ring

theorem atanApprox_add_neg_outside_neg {z : ℚ} (h : 1 < |z|) :
    atanApprox (-z) + atanApprox z < 0 := by
  have hpos : 0 < |z| := lt_trans one_pos h
  have hsq : 1 / z * (1 / z) ≤ 1 := by
    rw [← abs_mul_abs_self (1 / z), abs_one_div]
    have hle : 1 / |z| ≤ 1 := by
      rw [div_le_one hpos]
      exact h.le
    exact mul_le_one₀ hle (by positivity) hle
  have hpoly := atanPoly_pos (mul_self_nonneg (1 / z)) hsq
  have hterm : 0 < 1 / |z| * atanPoly (1 / z * (1 / z)) := mul_pos (by positivity) hpoly
  rw [atanApprox_add_neg_outside h]
  linarith

/-- A slope and its mirror image cancel exactly on the polynomial branch. -/
theorem atanApprox_add_neg (z : ℚ) : atanApprox (-z) + atanApprox z = 0 ↔ |z| ≤ 1 := by
  constructor
  · intro h
    by_contra hz
    exact (atanApprox_add_neg_outside_neg (not_le.mp hz)).ne h
  · exact atanApprox_add_neg_inside

/-! ### The quadrants -/

/-- The correction by the quadrant is odd away from `y = 0`: only the slopes decide. -/
theorem atan2fApprox_add_neg {x y : ℚ} (hx : x ≠ 0) (hy : y ≠ 0) :
    atan2fApprox (-y) x + atan2fApprox y x = atanApprox (-(y / x)) + atanApprox (y / x) := by
  have hz : -y / x = -(y / x) := neg_div x y
  simp only [atan2fApprox, if_neg hx, hz]
  rcases lt_or_ge x 0 with hneg | hnn
  · rw [if_pos hneg, if_pos hneg]
    rcases lt_or_gt_of_ne hy with h | h
    · rw [if_pos (by linarith), if_neg (by linarith)]
      ring
    · rw [if_neg (by linarith), if_pos (by linarith)]
      ring
  · rw [if_neg (not_lt.mpr hnn), if_neg (not_lt.mpr hnn)]

theorem atan2fApprox_vertical (y : ℚ) : atan2fApprox (-y) 0 = -atan2fApprox y 0 := by
  rcases lt_trichotomy y 0 with h | rfl | h
  · simp [atan2fApprox, h, not_lt.mpr h.le]
  · simp [atan2fApprox]
  · simp [atan2fApprox, h, not_lt.mpr h.le]

theorem atan2fApprox_cancel_iff {x y : ℚ} (hy : y ≠ 0) :
    atan2fApprox (-y) x + atan2fApprox y x = 0 ↔ x = 0 ∨ |y / x| ≤ 1 := by
  rcases eq_or_ne x 0 with rfl | hx
  · exact ⟨fun _ => .inl rfl, fun _ => add_eq_zero_iff_eq_neg.mpr (atan2fApprox_vertical y)⟩
  · rw [atan2fApprox_add_neg hx hy, atanApprox_add_neg]
    exact ⟨.inr, fun h => h.resolve_left hx⟩

/-- **The approximation is odd in `y` exactly on the vertical axis and where the slope is at most
one**: every other point and its mirror image get angles that are not opposite. -/
theorem atan2fApprox_odd_iff (x y : ℚ) (hy : y ≠ 0) :
    atan2fApprox (-y) x = -atan2fApprox y x ↔ x = 0 ∨ |y / x| ≤ 1 := by
  rw [← add_eq_zero_iff_eq_neg]
  exact atan2fApprox_cancel_iff hy

theorem atan2fApprox_odd_iff_steep :
    (2 : ℚ) ≠ 0 ∧ (atan2fApprox (-2) 1 = -atan2fApprox 2 1 ↔ (1 : ℚ) = 0 ∨ |(2 : ℚ) / 1| ≤ 1) :=
  ⟨by norm_num, atan2fApprox_odd_iff 1 2 (by norm_num)⟩

/-- The point `(1, 2)` and its mirror image. -/
theorem atan2fApprox_not_odd :
    ¬ ∀ x y : ℚ, y ≠ 0 → atan2fApprox (-y) x = -atan2fApprox y x := by
  intro h
  have hsum := add_eq_zero_iff_eq_neg.mpr (h 1 2 (by norm_num))
  have hslope := (atan2fApprox_cancel_iff (by norm_num)).mp hsum
  norm_num at hslope

/-- Mirrored attitudes (`q1` and `q3` negated) give mirrored yaw angles exactly when the
horizontal component carries at least as much as the vertical one, or nothing. -/
theorem qAngleZ_mirror {q0 q1 q2 q3 : ℚ} (h : 2 * q1 * q2 - 2 * q0 * q3 ≠ 0) :
    qAngleZ q0 (-q1) q2 (-q3) = -qAngleZ q0 q1 q2 q3 ↔
      -2 * q2 * q2 - 2 * q3 * q3 + 1 = 0 ∨
        |(2 * q1 * q2 - 2 * q0 * q3) / (-2 * q2 * q2 - 2 * q3 * q3 + 1)| ≤ 1 := by
  have hy : 2 * -q1 * q2 - 2 * q0 * -q3 = -(2 * q1 * q2 - 2 * q0 * q3) := by ring
  have hx : -2 * q2 * q2 - 2 * -q3 * -q3 + 1 = -2 * q2 * q2 - 2 * q3 * q3 + 1 := by ring
  unfold qAngleZ
  rw [hy, hx, ← atan2fApprox_cancel_iff h, add_eq_zero_iff_eq_neg, ← neg_mul]
  exact mul_left_inj' (by norm_num)

end BleHidUart.Gyroscope
