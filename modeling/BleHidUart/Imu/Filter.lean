import BleHidUart.Imu.Pitch
import BleHidUart.Lib.Run
import Mathlib.Algebra.Quaternion

/-!
# The attitude filter

`IMUupdate` is a Mahony filter: the acceleration is normalised, the gravity that the attitude
predicts is compared with it by a cross product, a proportional and an integral part of the error
correct the rates, and the rates turn the attitude, a quaternion. The pitch sets the duty cycle of
the PWM output. The arithmetic is read over the exact rationals, with the constants of the source.

The turn is a product of quaternions (`turned_eq`), so it never shortens one, and the normalisation
that follows divides by a positive root. `filter_sound`: on every run of samples the attitude is a
unit quaternion up to `2 / 10 ^ 6` and never longer, the pitch at most a right angle, the duty cycle
at most `100`, and the integral part grows by at most `0.01` with each sample.
-/

namespace BleHidUart.Imu.Filter

open BleHidUart.Lib.Run BleHidUart.Gyroscope BleHidUart.Imu.Sqrt BleHidUart.Imu.Pitch
open scoped Quaternion

/-! ### The source -/

/-- `Vector3f`. -/
@[ext] structure Vector3f where
  X : ℚ
  Y : ℚ
  Z : ℚ

/-- What `IMUupdate` reads of `IMUData`. -/
structure Sample where
  accelerate : Vector3f
  angular : Vector3f

/-- `q0` to `q3`. -/
structure Quat where
  q0 : ℚ
  q1 : ℚ
  q2 : ℚ
  q3 : ℚ

/-- The state of the filter: `exInt`, `eyInt` and `ezInt` are the integral part. -/
structure Attitude where
  q : Quat
  eInt : Vector3f
  qAngleX : ℚ
  qAngleY : ℚ
  qAngleZ : ℚ

/-- The initial values of the file's variables. -/
def start : Attitude := ⟨⟨1, 0, 0, 0⟩, ⟨0, 0, 0⟩, 0, 0, 0⟩

/-- `Kp`. -/
def kp : ℚ := 20

/-- `Ki`. -/
def ki : ℚ := 0.01

/-- `HALF_T`. -/
def halfT : ℚ := 0.01

/-- The acceleration, divided by its approximate length. -/
def unitOf (a : Vector3f) : Vector3f :=
  let norm := sqrtfApprox (a.X * a.X + a.Y * a.Y + a.Z * a.Z)
  ⟨a.X / norm, a.Y / norm, a.Z / norm⟩

/-- `vx`, `vy`, `vz`: the gravity that the attitude predicts. -/
def gravity (q : Quat) : Vector3f :=
  ⟨-1 * (q.q0 * q.q0 + q.q1 * q.q1 - q.q2 * q.q2 - q.q3 * q.q3),
    -1 * (2 * (q.q1 * q.q2 - q.q0 * q.q3)), -1 * (2 * (q.q1 * q.q3 + q.q0 * q.q2))⟩

/-- `ex`, `ey`, `ez`: the cross product of the two. -/
def cross (a v : Vector3f) : Vector3f :=
  ⟨a.Y * v.Z - a.Z * v.Y, a.Z * v.X - a.X * v.Z, a.X * v.Y - a.Y * v.X⟩

/-- The attitude after half a period at the rate `g`, before it is normalised. -/
def turned (q : Quat) (g : Vector3f) : Quat :=
  ⟨q.q0 + (-q.q1 * g.X - q.q2 * g.Y - q.q3 * g.Z) * halfT,
    q.q1 + (q.q0 * g.X + q.q2 * g.Z - q.q3 * g.Y) * halfT,
    q.q2 + (q.q0 * g.Y - q.q1 * g.Z + q.q3 * g.X) * halfT,
    q.q3 + (q.q0 * g.Z + q.q1 * g.Y - q.q2 * g.X) * halfT⟩

/-- `q0 * q0 + q1 * q1 + q2 * q2 + q3 * q3`. -/
def normSq (q : Quat) : ℚ := q.q0 * q.q0 + q.q1 * q.q1 + q.q2 * q.q2 + q.q3 * q.q3

/-- The attitude, divided by its approximate length. -/
def normalised (q : Quat) : Quat :=
  let norm := sqrtfApprox (normSq q)
  ⟨q.q0 / norm, q.q1 / norm, q.q2 / norm, q.q3 / norm⟩

/-- The argument of `asinf_approx`. -/
def pitchSine (q : Quat) : ℚ := 2 * q.q1 * q.q3 + 2 * q.q0 * q.q2

/-- `PwmDuty`, from `Q_ANGLE_Y` and the sign of `ax`. -/
def pwmDuty (pitch ax : ℚ) : ℕ :=
  if pitch < 0 then 0
  else if 79.98 ≤ pitch then 4095
  else if ax < 0 then 4095
  else ⌊pitch * 51.2⌋.toNat % 2 ^ 16

/-- What `SC7U22_PWM_SetDuty` is called with, and what it makes of it. -/
def setDuty (dutyPct : ℕ) : ℕ := if 100 < dutyPct then 100 else dutyPct

/-- `IMUupdate`: the new state, and the duty cycle it sets. -/
def imuUpdate (s : Attitude) (d : Sample) : Attitude × List ℕ :=
  let g : Vector3f := ⟨d.angular.X, -d.angular.Y, d.angular.Z⟩
  let a := d.accelerate
  if a.X * a.Y * a.Z = 0 then (s, [])
  else
    let a := unitOf a
    let v := gravity s.q
    let e := cross a v
    let eInt : Vector3f := ⟨s.eInt.X + e.X * ki, s.eInt.Y + e.Y * ki, s.eInt.Z + e.Z * ki⟩
    let g : Vector3f := ⟨g.X + kp * e.X + eInt.X, g.Y + kp * e.Y + eInt.Y, g.Z + kp * e.Z + eInt.Z⟩
    let q := normalised (turned s.q g)
    let qAngleZ := qAngleZ q.q0 q.q1 q.q2 q.q3
    let qAngleY := -asinfApprox (pitchSine q) * 57.3
    let qAngleX := s.qAngleX + g.X * halfT * 2 * 57.3
    (⟨q, eInt, qAngleX, qAngleY, qAngleZ⟩, [setDuty (pwmDuty qAngleY a.X * 100 / 4095)])

/-! ### Vectors -/

/-- The square of the length. -/
def lenSq (a : Vector3f) : ℚ := a.X * a.X + a.Y * a.Y + a.Z * a.Z

theorem lenSq_nonneg (a : Vector3f) : 0 ≤ lenSq a :=
  add_nonneg (add_nonneg (mul_self_nonneg _) (mul_self_nonneg _)) (mul_self_nonneg _)

theorem lenSq_pos {a : Vector3f} (h : a.X * a.Y * a.Z ≠ 0) : 0 < lenSq a := by
  have hX : a.X ≠ 0 := fun h0 => h (by rw [h0]; ring)
  have hpos : 0 < a.X * a.X := mul_self_pos.mpr hX
  have hY := mul_self_nonneg a.Y
  have hZ := mul_self_nonneg a.Z
  unfold lenSq
  linarith

theorem lenSq_div (a : Vector3f) (r : ℚ) : lenSq ⟨a.X / r, a.Y / r, a.Z / r⟩ = lenSq a / r ^ 2 := by
  unfold lenSq
  ring

theorem div_sq_sqrtfApprox_le {x : ℚ} (hx : 0 < x) : x / sqrtfApprox x ^ 2 ≤ 1 := by
  obtain ⟨hpos, hlow, -⟩ := sqrtfApprox_near hx
  rw [div_le_one (pow_pos hpos 2)]
  exact hlow

theorem le_div_sq_sqrtfApprox {x : ℚ} (hx : 0 < x) :
    1 / (1 + 2 / 10 ^ 6) ≤ x / sqrtfApprox x ^ 2 := by
  obtain ⟨hpos, -, hup⟩ := sqrtfApprox_near hx
  rw [div_le_div_iff₀ (by norm_num) (pow_pos hpos 2)]
  linarith

theorem lenSq_unitOf_le {a : Vector3f} (h : 0 < lenSq a) : lenSq (unitOf a) ≤ 1 := by
  have hdiv : lenSq (unitOf a) = lenSq a / sqrtfApprox (lenSq a) ^ 2 := lenSq_div a _
  rw [hdiv]
  exact div_sq_sqrtfApprox_le h

theorem lenSq_cross_le (a v : Vector3f) : lenSq (cross a v) ≤ lenSq a * lenSq v := by
  have hid : lenSq a * lenSq v - lenSq (cross a v) = (a.X * v.X + a.Y * v.Y + a.Z * v.Z) ^ 2 := by
    unfold lenSq cross
    ring
  have := sq_nonneg (a.X * v.X + a.Y * v.Y + a.Z * v.Z)
  linarith

theorem abs_le_of_lenSq_le {a : Vector3f} (h : lenSq a ≤ 1) : |a.X| ≤ 1 ∧ |a.Y| ≤ 1 ∧
    |a.Z| ≤ 1 := by
  have hX := mul_self_nonneg a.X
  have hY := mul_self_nonneg a.Y
  have hZ := mul_self_nonneg a.Z
  unfold lenSq at h
  refine ⟨?_, ?_, ?_⟩ <;> rw [← sq_le_one_iff_abs_le_one] <;> linarith

/-! ### Quaternions -/

/-- The attitude as a quaternion. -/
def toQuaternion (q : Quat) : Quaternion ℚ := ⟨q.q0, q.q1, q.q2, q.q3⟩

/-- A vector as a quaternion. -/
def pureOf (a : Vector3f) : Quaternion ℚ := ⟨0, a.X, a.Y, a.Z⟩

@[simp] theorem re_toQuaternion (q : Quat) : (toQuaternion q).re = q.q0 := rfl

@[simp] theorem imI_toQuaternion (q : Quat) : (toQuaternion q).imI = q.q1 := rfl

@[simp] theorem imJ_toQuaternion (q : Quat) : (toQuaternion q).imJ = q.q2 := rfl

@[simp] theorem imK_toQuaternion (q : Quat) : (toQuaternion q).imK = q.q3 := rfl

@[simp] theorem re_pureOf (a : Vector3f) : (pureOf a).re = 0 := rfl

@[simp] theorem imI_pureOf (a : Vector3f) : (pureOf a).imI = a.X := rfl

@[simp] theorem imJ_pureOf (a : Vector3f) : (pureOf a).imJ = a.Y := rfl

@[simp] theorem imK_pureOf (a : Vector3f) : (pureOf a).imK = a.Z := rfl

theorem normSq_toQuaternion (q : Quat) : Quaternion.normSq (toQuaternion q) = normSq q := by
  rw [Quaternion.normSq_def', normSq]
  simp only [re_toQuaternion, imI_toQuaternion, imJ_toQuaternion, imK_toQuaternion, sq]

theorem normSq_pureOf (a : Vector3f) : Quaternion.normSq (pureOf a) = lenSq a := by
  rw [Quaternion.normSq_def', lenSq]
  simp only [re_pureOf, imI_pureOf, imJ_pureOf, imK_pureOf, sq, zero_mul, zero_add]

/-- **A turn is a product**, with `1` plus a small vector. -/
theorem toQuaternion_turned (q : Quat) (g : Vector3f) :
    toQuaternion (turned q g) = toQuaternion q * (1 + halfT • pureOf g) := by
  apply Quaternion.ext <;> simp [turned] <;> ring

theorem pureOf_gravity (q : Quat) :
    pureOf (gravity q) = -(star (toQuaternion q) * pureOf ⟨1, 0, 0⟩ * toQuaternion q) := by
  apply Quaternion.ext <;> simp [gravity] <;> ring

theorem normSq_one_add_smul (g : Vector3f) :
    Quaternion.normSq (1 + halfT • pureOf g) = 1 + halfT ^ 2 * lenSq g := by
  rw [Quaternion.normSq_def', lenSq]
  simp
  ring

theorem normSq_turned (q : Quat) (g : Vector3f) :
    normSq (turned q g) = normSq q * (1 + halfT ^ 2 * lenSq g) := by
  rw [← normSq_toQuaternion, toQuaternion_turned, map_mul, normSq_toQuaternion, normSq_one_add_smul]

theorem normSq_le_turned {q : Quat} (h : 0 ≤ normSq q) (g : Vector3f) :
    normSq q ≤ normSq (turned q g) := by
  have hnn : 0 ≤ normSq q * (halfT ^ 2 * lenSq g) :=
    mul_nonneg h (mul_nonneg (sq_nonneg _) (lenSq_nonneg g))
  rw [normSq_turned]
  linarith

/-- The predicted gravity is as long as the square of the attitude. -/
theorem lenSq_gravity (q : Quat) : lenSq (gravity q) = normSq q ^ 2 := by
  have hunit : lenSq ⟨1, 0, 0⟩ = 1 := by norm_num [lenSq]
  rw [← normSq_pureOf, pureOf_gravity, Quaternion.normSq_neg, map_mul, map_mul,
    Quaternion.normSq_star, normSq_pureOf, hunit, normSq_toQuaternion]
  ring

/-- A unit quaternion, up to the error of the square root. -/
def IsUnit (q : Quat) : Prop := 1 / (1 + 2 / 10 ^ 6) ≤ normSq q ∧ normSq q ≤ 1

theorem isUnit_normalised {q : Quat} (h : 0 < normSq q) : IsUnit (normalised q) := by
  have hdiv : normSq (normalised q) = normSq q / sqrtfApprox (normSq q) ^ 2 := by
    unfold normalised normSq
    ring
  unfold IsUnit
  rw [hdiv]
  exact ⟨le_div_sq_sqrtfApprox h, div_sq_sqrtfApprox_le h⟩

theorem IsUnit.pos {q : Quat} (h : IsUnit q) : 0 < normSq q := lt_of_lt_of_le (by norm_num) h.1

/-! ### A sample -/

/-- The error of a sample. -/
def errorOf (s : Attitude) (d : Sample) : Vector3f := cross (unitOf d.accelerate) (gravity s.q)

/-- The integral part after a sample. -/
def integralOf (s : Attitude) (d : Sample) : Vector3f :=
  ⟨s.eInt.X + (errorOf s d).X * ki, s.eInt.Y + (errorOf s d).Y * ki,
    s.eInt.Z + (errorOf s d).Z * ki⟩

/-- The corrected rates. -/
def rateOf (s : Attitude) (d : Sample) : Vector3f :=
  ⟨d.angular.X + kp * (errorOf s d).X + (integralOf s d).X,
    -d.angular.Y + kp * (errorOf s d).Y + (integralOf s d).Y,
    d.angular.Z + kp * (errorOf s d).Z + (integralOf s d).Z⟩

/-- The attitude after a sample. -/
def nextOf (s : Attitude) (d : Sample) : Quat := normalised (turned s.q (rateOf s d))

/-- `Q_ANGLE_Y` of an attitude. -/
def pitchOf (q : Quat) : ℚ := -asinfApprox (pitchSine q) * 57.3

/-- The duty cycle for a pitch and the sign of `ax`. -/
def dutyOf (pitch ax : ℚ) : ℕ := setDuty (pwmDuty pitch ax * 100 / 4095)

/-- The filter skips a sample: one coordinate of the acceleration is zero. -/
def Skipped (d : Sample) : Prop := d.accelerate.X * d.accelerate.Y * d.accelerate.Z = 0

instance (d : Sample) : Decidable (Skipped d) := inferInstanceAs (Decidable (_ = (0 : ℚ)))

/-- **What a sample does.** -/
theorem imuUpdate_cases (s : Attitude) (d : Sample) :
    Skipped d ∧ imuUpdate s d = (s, []) ∨
    ¬Skipped d ∧ imuUpdate s d =
      (⟨nextOf s d, integralOf s d, s.qAngleX + (rateOf s d).X * halfT * 2 * 57.3,
      pitchOf (nextOf s d),
        qAngleZ (nextOf s d).q0 (nextOf s d).q1 (nextOf s d).q2 (nextOf s d).q3⟩,
       [dutyOf (pitchOf (nextOf s d)) (unitOf d.accelerate).X]) := by
  by_cases h : Skipped d
  · exact .inl ⟨h, if_pos h⟩
  · exact .inr ⟨h, if_neg h⟩

/-! ### The duty cycle -/

theorem abs_pitchOf_le (q : Quat) : |pitchOf q| ≤ 90.01 := by
  have h := abs_asinfApprox_le (pitchSine q)
  rw [pitchOf, abs_mul, abs_neg, abs_of_nonneg (by norm_num : (0 : ℚ) ≤ 57.3)]
  linarith

/-- Below `79.98` degrees the conversion to `uint16_t` keeps the value, which is below `4095`. -/
theorem pwmDuty_of_lt {pitch ax : ℚ} (h0 : 0 ≤ pitch) (h : pitch < 79.98) (hax : 0 ≤ ax) :
    pwmDuty pitch ax = ⌊pitch * 51.2⌋.toNat ∧ pwmDuty pitch ax ≤ 4094 := by
  have hfloor : ⌊pitch * 51.2⌋ < 4095 := by
    rw [Int.floor_lt]
    push_cast
    linarith
  have hnat : ⌊pitch * 51.2⌋.toNat ≤ 4094 := by omega
  have hpwm : pwmDuty pitch ax = ⌊pitch * 51.2⌋.toNat := by
    rw [pwmDuty, if_neg (not_lt.mpr h0), if_neg (not_le.mpr h), if_neg (not_lt.mpr hax),
      Nat.mod_eq_of_lt (by omega)]
  exact ⟨hpwm, hpwm ▸ hnat⟩

theorem pwmDuty_le (pitch ax : ℚ) : pwmDuty pitch ax ≤ 4095 := by
  rcases lt_or_ge pitch 0 with h0 | h0
  · rw [pwmDuty, if_pos h0]
    exact Nat.zero_le _
  · rcases le_or_gt 79.98 pitch with h | h
    · rw [pwmDuty, if_neg (not_lt.mpr h0), if_pos h]
    · rcases lt_or_ge ax 0 with hax | hax
      · rw [pwmDuty, if_neg (not_lt.mpr h0), if_neg (not_le.mpr h), if_pos hax]
      · exact (pwmDuty_of_lt h0 h hax).2.trans (by norm_num)

theorem dutyOf_eq (pitch ax : ℚ) : dutyOf pitch ax = pwmDuty pitch ax * 100 / 4095 := by
  have h := pwmDuty_le pitch ax
  rw [dutyOf, setDuty, if_neg (by omega)]

theorem dutyOf_le (pitch ax : ℚ) : dutyOf pitch ax ≤ 100 := by
  have h := pwmDuty_le pitch ax
  rw [dutyOf_eq]
  omega

/-! ### Every run -/

theorem abs_errorOf_le {s : Attitude} {d : Sample} (hq : normSq s.q ≤ 1) (hd : ¬Skipped d) :
    |(errorOf s d).X| ≤ 1 ∧ |(errorOf s d).Y| ≤ 1 ∧ |(errorOf s d).Z| ≤ 1 := by
  have hnn : 0 ≤ normSq s.q := by
    rw [← normSq_toQuaternion]
    exact Quaternion.normSq_nonneg
  have hg : lenSq (gravity s.q) ≤ 1 := by
    rw [lenSq_gravity]
    exact pow_le_one₀ hnn hq
  have ha : lenSq (unitOf d.accelerate) ≤ 1 := lenSq_unitOf_le (lenSq_pos hd)
  refine abs_le_of_lenSq_le ?_
  calc lenSq (errorOf s d)
      ≤ lenSq (unitOf d.accelerate) * lenSq (gravity s.q) := lenSq_cross_le _ _
    _ ≤ 1 * 1 := mul_le_mul ha hg (lenSq_nonneg _) (by norm_num)
    _ = 1 := one_mul 1

/-- What holds after `n` samples. -/
structure Sound (n : ℕ) (s : Attitude) : Prop where
  unit : IsUnit s.q
  pitch : |s.qAngleY| ≤ 90.01
  integral : |s.eInt.X| ≤ n * 0.01 ∧ |s.eInt.Y| ≤ n * 0.01 ∧ |s.eInt.Z| ≤ n * 0.01

theorem sound_start : Sound 0 start := by
  refine ⟨?_, ?_, ?_⟩ <;> norm_num [start, IsUnit, normSq]

theorem abs_add_ki_le {n : ℕ} {a e : ℚ} (ha : |a| ≤ n * 0.01) (he : |e| ≤ 1) :
    |a + e * ki| ≤ (n + 1 : ℕ) * 0.01 := by
  have hki : |e * ki| ≤ 0.01 := by
    rw [abs_mul, ki, abs_of_nonneg (by norm_num : (0 : ℚ) ≤ 0.01)]
    linarith
  have hadd := abs_add_le a (e * ki)
  push_cast
  linarith

theorem sound_step {n : ℕ} {s : Attitude} (h : Sound n s) (d : Sample) :
    Sound (n + 1) (imuUpdate s d).1 := by
  obtain ⟨hunit, hpitch, hX, hY, hZ⟩ := h
  have hgrow : (n : ℚ) * 0.01 ≤ (n + 1 : ℕ) * 0.01 := by
    push_cast
    linarith
  rcases imuUpdate_cases s d with ⟨-, hs⟩ | ⟨hd, hs⟩
  · rw [hs]
    exact ⟨hunit, hpitch, hX.trans hgrow, hY.trans hgrow, hZ.trans hgrow⟩
  · rw [hs]
    obtain ⟨heX, heY, heZ⟩ := abs_errorOf_le hunit.2 hd
    have hlong : 0 < normSq (turned s.q (rateOf s d)) :=
      lt_of_lt_of_le hunit.pos (normSq_le_turned hunit.pos.le _)
    exact ⟨isUnit_normalised hlong, abs_pitchOf_le _, abs_add_ki_le hX heX, abs_add_ki_le hY heY,
      abs_add_ki_le hZ heZ⟩

theorem sound_run {n : ℕ} {s : Attitude} (h : Sound n s) (ds : List Sample) :
    Sound (n + ds.length) (final imuUpdate s ds) := by
  induction ds generalizing n s with
  | nil => exact h
  | cons d ds ih =>
    have hnext := ih (sound_step h d)
    have hlen : n + 1 + ds.length = n + (d :: ds).length := by
      rw [List.length_cons]
      omega
    rwa [hlen] at hnext

theorem dutyOf_of_mem_outs {s : Attitude} {ds : List Sample} {duty : ℕ}
    (h : duty ∈ outs imuUpdate s ds) : ∃ pitch ax, duty = dutyOf pitch ax := by
  induction ds generalizing s with
  | nil => simp at h
  | cons d ds ih =>
    rcases List.mem_append.mp h with h | h
    · rcases imuUpdate_cases s d with ⟨-, hs⟩ | ⟨-, hs⟩
      · rw [hs] at h
        simp at h
      · rw [hs] at h
        exact ⟨_, _, List.mem_singleton.mp h⟩
    · exact ih h

/-- The small turns of a run, multiplied. -/
def turns : Attitude → List Sample → Quaternion ℚ
  | _, [] => 1
  | s, d :: ds =>
    if Skipped d then turns s ds else (1 + halfT • pureOf (rateOf s d)) * turns (imuUpdate s d).1 ds

theorem toQuaternion_normalised {q : Quat} (h : 0 < normSq q) :
    ∃ r : ℚ, 0 < r ∧ toQuaternion (normalised q) = r • toQuaternion q := by
  obtain ⟨hpos, -, -⟩ := sqrtfApprox_near h
  refine ⟨(sqrtfApprox (normSq q))⁻¹, inv_pos.mpr hpos, ?_⟩
  apply Quaternion.ext <;> simp [normalised, div_eq_inv_mul]

theorem final_eq_turns {n : ℕ} {s : Attitude} (h : Sound n s) (ds : List Sample) :
    ∃ r : ℚ, 0 < r ∧ toQuaternion (final imuUpdate s ds).q =
      r • (toQuaternion s.q * turns s ds) := by
  induction ds generalizing n s with
  | nil => exact ⟨1, one_pos, by rw [final_nil, turns, mul_one, one_smul]⟩
  | cons d ds ih =>
    obtain ⟨r, hr, hnext⟩ := ih (sound_step h d)
    rw [final_cons, hnext]
    rcases imuUpdate_cases s d with ⟨hd, hs⟩ | ⟨hd, hs⟩
    · refine ⟨r, hr, ?_⟩
      rw [turns, if_pos hd, hs]
    · have hlong : 0 < normSq (turned s.q (rateOf s d)) :=
        lt_of_lt_of_le h.unit.pos (normSq_le_turned h.unit.pos.le _)
      obtain ⟨r', hr', hscale⟩ := toQuaternion_normalised hlong
      have hq : (imuUpdate s d).1.q = nextOf s d := by rw [hs]
      refine ⟨r * r', mul_pos hr hr', ?_⟩
      rw [turns, if_neg hd, hq, nextOf, hscale, toQuaternion_turned, smul_mul_assoc, smul_smul,
        mul_assoc]

/-- **The filter on every run**, over the exact rationals: the attitude is the product of the small
turns of the samples, scaled to a unit quaternion up to `2 / 10 ^ 6`; the pitch is at most a right
angle and the duty cycle at most `100`; the integral part grows by at most `0.01` with each
sample. -/
theorem filter_sound (ds : List Sample) :
    (∃ r : ℚ, 0 < r ∧ toQuaternion (final imuUpdate start ds).q = r • turns start ds) ∧
      Sound ds.length (final imuUpdate start ds) ∧
        ∀ duty ∈ outs imuUpdate start ds, duty ≤ 100 := by
  refine ⟨?_, ?_, ?_⟩
  · obtain ⟨r, hr, h⟩ := final_eq_turns sound_start ds
    have hone : toQuaternion start.q = 1 := rfl
    rw [hone, one_mul] at h
    exact ⟨r, hr, h⟩
  · have h := sound_run sound_start ds
    rwa [Nat.zero_add] at h
  · intro duty hduty
    obtain ⟨pitch, ax, rfl⟩ := dutyOf_of_mem_outs hduty
    exact dutyOf_le pitch ax

end BleHidUart.Imu.Filter
