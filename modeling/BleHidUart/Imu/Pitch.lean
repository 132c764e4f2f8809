import BleHidUart.Gyroscope
import BleHidUart.Imu.Sqrt

/-!
# The arcsine of the attitude solver

`asinf_approx` limits its argument to `[-1, 1]`, uses an odd polynomial below `0.9`, and above a
polynomial in the square root of `1 - |x|`, with the sign put back. `asinf_shape`: the result is
odd, at most a right angle, and grows on the polynomial branch; but where the branches meet it
falls, so that the pitch angle goes down while the attitude goes on rising.
-/

namespace BleHidUart.Imu.Pitch

open BleHidUart.Gyroscope BleHidUart.Imu.Sqrt

/-! ### The source -/

/-- The inner branch of `asinf_approx`. -/
def asinInner (x : ℚ) : ℚ :=
  let x2 := x * x
  x * (1 + x2 * (0.16666667 +
    x2 * (0.075 + x2 * (0.04464286 + x2 * (0.03038194 + x2 * 0.02237216)))))

/-- `result` of the outer branch, from the square root. -/
def asinOuter (sqrtTerm : ℚ) : ℚ :=
  1.57079633 - sqrtTerm * (1.57079633 - sqrtTerm *
    (0.2146018 - sqrtTerm * (0.0886915 - sqrtTerm * 0.0424717)))

/-- `asinf_approx`. -/
def asinfApprox (x : ℚ) : ℚ :=
  let x := if 1 < x then 1 else x
  let x := if x < -1 then -1 else x
  let absX := if x < 0 then -x else x
  if absX < 0.9 then asinInner x
  else
    let result := asinOuter (sqrtfApprox (1 - absX))
    if x < 0 then -result else result

/-! ### The branches -/

/-- The argument, limited to `[-1, 1]`. -/
def limited (x : ℚ) : ℚ := max (-1) (min 1 x)

theorem limited_of_abs_le {x : ℚ} (h : |x| ≤ 1) : limited x = x := by
  obtain ⟨h1, h2⟩ := abs_le.mp h
  rw [limited, min_eq_right h2, max_eq_right h1]

theorem limited_of_one_le {x : ℚ} (h : 1 ≤ x) : limited x = 1 := by
  rw [limited, min_eq_left h, max_eq_right (by norm_num)]

theorem limited_of_le_neg_one {x : ℚ} (h : x ≤ -1) : limited x = -1 := by
  rw [limited, min_eq_right (by linarith), max_eq_left h]

theorem limited_neg (x : ℚ) : limited (-x) = -limited x := by
  rcases le_total x (-1) with h | h
  · rw [limited_of_le_neg_one h, limited_of_one_le (by linarith), neg_neg]
  · rcases le_total x 1 with h' | h'
    · have habs : |x| ≤ 1 := abs_le.mpr ⟨h, h'⟩
      rw [limited_of_abs_le habs, limited_of_abs_le (by rwa [abs_neg])]
    · rw [limited_of_one_le h', limited_of_le_neg_one (by linarith)]

theorem limits_eq (x : ℚ) :
    (if (if 1 < x then 1 else x) < -1 then -1 else if 1 < x then 1 else x) = limited x := by
  rcases lt_or_ge 1 x with h | h
  · rw [if_pos h, if_neg (by norm_num), limited_of_one_le h.le]
  · rw [if_neg (not_lt.mpr h)]
    rcases lt_or_ge x (-1) with h' | h'
    · rw [if_pos h', limited_of_le_neg_one h'.le]
    · rw [if_neg (not_lt.mpr h'), limited_of_abs_le (abs_le.mpr ⟨h', h⟩)]

theorem asinfApprox_eq (x : ℚ) : asinfApprox x =
    if |limited x| < 0.9 then asinInner (limited x)
    else if limited x < 0 then -asinOuter (sqrtfApprox (1 - |limited x|))
    else asinOuter (sqrtfApprox (1 - |limited x|)) := by
  simp only [asinfApprox, limits_eq, absZ_eq]

theorem asinfApprox_inner {x : ℚ} (h : |x| < 0.9) : asinfApprox x = asinInner x := by
  have hx : limited x = x := limited_of_abs_le (h.le.trans (by norm_num))
  rw [asinfApprox_eq, hx, if_pos h]

theorem asinfApprox_outer {x : ℚ} (h : 0.9 ≤ x) (h' : x ≤ 1) :
    asinfApprox x = asinOuter (sqrtfApprox (1 - x)) := by
  have habs : |x| = x := abs_of_nonneg (by linarith)
  have hx : limited x = x := limited_of_abs_le (by rwa [habs])
  rw [asinfApprox_eq, hx, habs, if_neg (not_lt.mpr h), if_neg (by linarith)]

theorem asinInner_neg (x : ℚ) : asinInner (-x) = -asinInner x := by
  unfold asinInner
  ring

theorem asinfApprox_neg (x : ℚ) : asinfApprox (-x) = -asinfApprox x := by
  rw [asinfApprox_eq, asinfApprox_eq, limited_neg, abs_neg, asinInner_neg]
  by_cases h : |limited x| < 0.9
  · rw [if_pos h, if_pos h]
  · rw [if_neg h, if_neg h]
    rcases lt_trichotomy (limited x) 0 with h0 | h0 | h0
    · rw [if_neg (by linarith), if_pos h0, neg_neg]
    · rw [h0, abs_zero] at h
      norm_num at h
    · rw [if_pos (by linarith), if_neg (by linarith)]

/-! ### Bounds -/

/-- The polynomial as a sum of odd powers. -/
theorem asinInner_eq (x : ℚ) :
    asinInner x = x + 0.16666667 * x ^ 3 + 0.075 * x ^ 5 + 0.04464286 * x ^ 7 +
    0.03038194 * x ^ 9 + 0.02237216 * x ^ 11 := by
  unfold asinInner
  ring

theorem asinInner_lt {x y : ℚ} (hxy : x < y) : asinInner x < asinInner y := by
  have hpow : ∀ n : ℕ, Odd n → x ^ n < y ^ n := fun n hn => hn.strictMono_pow hxy
  have h3 := hpow 3 (by decide)
  have h5 := hpow 5 (by decide)
  have h7 := hpow 7 (by decide)
  have h9 := hpow 9 (by decide)
  have h11 := hpow 11 (by decide)
  rw [asinInner_eq, asinInner_eq]
  linarith

theorem asinInner_le {x y : ℚ} (hxy : x ≤ y) : asinInner x ≤ asinInner y := by
  rcases hxy.eq_or_lt with rfl | h
  · exact le_rfl
  · exact (asinInner_lt h).le

theorem abs_asinInner_le {x : ℚ} (h : |x| ≤ 0.9) : |asinInner x| ≤ 1.106 := by
  have hend : asinInner 0.9 ≤ 1.106 := by norm_num [asinInner]
  obtain ⟨h1, h2⟩ := abs_le.mp h
  refine abs_le.mpr ⟨?_, (asinInner_le h2).trans hend⟩
  have hlow := asinInner_le h1
  rw [asinInner_neg] at hlow
  linarith

theorem sqrtfApprox_le {x b : ℚ} (hb : 0 ≤ b) (h : (1 + 2 / 10 ^ 6) * x ≤ b ^ 2) :
    sqrtfApprox x ≤ b := by
  rcases le_or_gt x 0 with hx | hx
  · rw [sqrtfApprox, if_pos hx]
    exact hb
  · obtain ⟨-, -, hup⟩ := sqrtfApprox_near hx
    exact le_of_sq_le_sq (hup.trans h) hb

theorem le_sqrtfApprox {x a : ℚ} (hx : 0 < x) (h : a ^ 2 ≤ x) : a ≤ sqrtfApprox x := by
  obtain ⟨hpos, hlow, -⟩ := sqrtfApprox_near hx
  exact le_of_sq_le_sq (h.trans hlow) hpos.le

theorem sqrtfApprox_nonneg (x : ℚ) : 0 ≤ sqrtfApprox x := by
  rcases le_or_gt x 0 with hx | hx
  · rw [sqrtfApprox, if_pos hx]
  · exact (sqrtfApprox_near hx).1.le

theorem asinOuter_lt {s t : ℚ} (h0 : 0 ≤ s) (hst : s < t) (ht : t ≤ 0.32) :
    asinOuter t < asinOuter s := by
  have hslope : 0 < 1.57079633 - 0.2146018 * (t + s) + 0.0886915 * (t * t + t * s + s * s) -
      0.0424717 * ((t + s) * (t * t + s * s)) := by
    have h1 : t * t ≤ 0.32 * 0.32 := mul_le_mul ht ht (h0.trans hst.le) (by norm_num)
    have h2 : s * s ≤ 0.32 * 0.32 := mul_le_mul (hst.le.trans ht) (hst.le.trans ht) h0 (by norm_num)
    have h3 : (t + s) * (t * t + s * s) ≤ (0.32 + 0.32) * (0.32 * 0.32 + 0.32 * 0.32) :=
      mul_le_mul (by linarith) (by linarith) (by nlinarith) (by norm_num)
    have h4 : 0 ≤ t * t + t * s + s * s := by nlinarith
    nlinarith
  have hdiff : asinOuter s - asinOuter t = (t - s) * (1.57079633 - 0.2146018 * (t + s) +
      0.0886915 * (t * t + t * s + s * s) - 0.0424717 * ((t + s) * (t * t + s * s))) := by
    unfold asinOuter
    ring
  have := mul_pos (sub_pos.mpr hst) hslope
  linarith

theorem asinOuter_le {s t : ℚ} (h0 : 0 ≤ s) (hst : s ≤ t) (ht : t ≤ 0.32) :
    asinOuter t ≤ asinOuter s := by
  rcases hst.eq_or_lt with rfl | h
  · exact le_rfl
  · exact (asinOuter_lt h0 h ht).le

theorem asinOuter_bounds {x : ℚ} (h : x ≤ 0.1) :
    0 ≤ asinOuter (sqrtfApprox x) ∧ asinOuter (sqrtfApprox x) ≤ 1.57079633 := by
  have hs : sqrtfApprox x ≤ 0.32 := sqrtfApprox_le (by norm_num) (by linarith)
  have hlow := asinOuter_le (sqrtfApprox_nonneg x) hs le_rfl
  have hup := asinOuter_le le_rfl (sqrtfApprox_nonneg x) hs
  have h0 : asinOuter 0 = 1.57079633 := by norm_num [asinOuter]
  have h1 : 0 ≤ asinOuter 0.32 := by norm_num [asinOuter]
  exact ⟨h1.trans hlow, hup.trans h0.le⟩

theorem abs_asinfApprox_le (x : ℚ) : |asinfApprox x| ≤ 1.57079633 := by
  rw [asinfApprox_eq]
  split_ifs with hin hneg
  · exact (abs_asinInner_le hin.le).trans (by norm_num)
  all_goals
    have ⟨h0, h1⟩ := asinOuter_bounds (x := 1 - |limited x|) (by linarith [not_lt.mp hin])
  · rw [abs_neg, abs_of_nonneg h0]
    exact h1
  · rw [abs_of_nonneg h0]
    exact h1

/-- Where the branches meet, the later argument has the smaller angle. -/
theorem asinfApprox_falls {x y : ℚ} (hy : 0.897 ≤ y) (hy' : y < 0.9) (hx : 0.9 ≤ x)
    (hx' : x ≤ 0.902) : asinfApprox x < asinfApprox y := by
  have habs : |y| = y := abs_of_nonneg (by linarith)
  have hin : |y| < 0.9 := by rwa [habs]
  rw [asinfApprox_inner hin, asinfApprox_outer hx (by linarith)]
  have hroot : 0.313 ≤ sqrtfApprox (1 - x) := le_sqrtfApprox (by linarith) (by linarith)
  have hroot' : sqrtfApprox (1 - x) ≤ 0.32 := sqrtfApprox_le (by norm_num) (by linarith)
  calc asinOuter (sqrtfApprox (1 - x))
      ≤ asinOuter 0.313 := asinOuter_le (by norm_num) hroot hroot'
    _ < asinInner 0.897 := by norm_num [asinOuter, asinInner]
    _ ≤ asinInner y := asinInner_le hy

/-- **The shape of the arcsine**: odd, at most a right angle, growing on the polynomial branch, and
falling where the branches meet. -/
theorem asinf_shape (x : ℚ) :
    asinfApprox (-x) = -asinfApprox x ∧ |asinfApprox x| ≤ 1.57079633 ∧
      (∀ y, |x| < 0.9 → |y| < 0.9 → x < y → asinfApprox x < asinfApprox y) ∧
      ∀ y, 0.897 ≤ y → y < 0.9 → 0.9 ≤ x → x ≤ 0.902 → asinfApprox x < asinfApprox y := by
  refine ⟨asinfApprox_neg x, abs_asinfApprox_le x, fun y hx hy hxy => ?_, fun y hy hy' hx hx' => ?_⟩
  · rw [asinfApprox_inner hx, asinfApprox_inner hy]
    exact asinInner_lt hxy
  · exact asinfApprox_falls hy hy' hx hx'

theorem asinf_shape_meet :
    |(0.5 : ℚ)| < 0.9 ∧ asinfApprox 0.5 < asinfApprox 0.6 ∧ asinfApprox 0.9 < asinfApprox 0.899 :=
  ⟨by norm_num [abs_lt],
    (asinf_shape 0.5).2.2.1 0.6 (by norm_num [abs_lt]) (by norm_num [abs_lt]) (by norm_num),
    (asinf_shape 0.9).2.2.2 0.899 (by norm_num) (by norm_num) (by norm_num) (by norm_num)⟩

end BleHidUart.Imu.Pitch
