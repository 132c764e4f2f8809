import BleHidUart.Imu.Filter

/-!
# The sensor turned over

`mirror` is the sample of a sensor turned over, by half a turn about its first axis: the other two
axes read the opposite of both vectors. `mirrored_run`: on every run the filter, with its arithmetic
over the exact rationals, then ends in the mirrored attitude, with the same roll and the opposite
pitch, and the two PWM outputs are never on together, but for a pitch of exactly zero. The yaw is
the opposite one exactly where `atan2f_approx` is odd.
-/

namespace BleHidUart.Imu.Mirror

open BleHidUart.Lib.Run BleHidUart.Gyroscope BleHidUart.Imu.Pitch BleHidUart.Imu.Filter

/-- Half a turn about the first axis. -/
def mirrorVec (a : Vector3f) : Vector3f := ⟨a.X, -a.Y, -a.Z⟩

/-- The sample of the sensor turned over. -/
def mirror (d : Sample) : Sample := ⟨mirrorVec d.accelerate, mirrorVec d.angular⟩

/-- The attitude of the sensor turned over. -/
def mirrorQuat (q : Quat) : Quat := ⟨q.q0, q.q1, -q.q2, -q.q3⟩

/-! ### The parts of a step -/

theorem unitOf_mirrorVec (a : Vector3f) : unitOf (mirrorVec a) = mirrorVec (unitOf a) := by
  simp only [unitOf, mirrorVec, neg_mul_neg, neg_div]

theorem gravity_mirrorQuat (q : Quat) : gravity (mirrorQuat q) = mirrorVec (gravity q) := by
  ext <;> simp only [gravity, mirrorQuat, mirrorVec] <;> ring

theorem cross_mirrorVec (a v : Vector3f) :
    cross (mirrorVec a) (mirrorVec v) = mirrorVec (cross a v) := by
  ext <;> simp only [cross, mirrorVec] <;> ring

theorem turned_mirrorQuat (q : Quat) (g : Vector3f) :
    turned (mirrorQuat q) (mirrorVec g) = mirrorQuat (turned q g) := by
  simp only [turned, mirrorQuat, mirrorVec, Quat.mk.injEq]
  refine ⟨?_, ?_, ?_, ?_⟩ <;> ring

theorem normalised_mirrorQuat (q : Quat) :
    normalised (mirrorQuat q) = mirrorQuat (normalised q) := by
  have hlen : normSq (mirrorQuat q) = normSq q := by
    simp only [normSq, mirrorQuat, neg_mul_neg]
  simp only [normalised, hlen]
  simp only [mirrorQuat, neg_div]

theorem skipped_mirror (d : Sample) : Skipped (mirror d) ↔ Skipped d := by
  simp only [Skipped, mirror, mirrorVec, mul_neg, neg_mul, neg_neg]

theorem pitchOf_mirrorQuat (q : Quat) : pitchOf (mirrorQuat q) = -pitchOf q := by
  have hsine : pitchSine (mirrorQuat q) = -pitchSine q := by
    simp only [pitchSine, mirrorQuat]
    ring
  rw [pitchOf, pitchOf, hsine, asinfApprox_neg]
  ring

/-! ### A step -/

/-- The two filters: `s` of the sensor, `t` of the sensor turned over. -/
structure Mirrored (s t : Attitude) : Prop where
  q : t.q = mirrorQuat s.q
  eInt : t.eInt = mirrorVec s.eInt
  roll : t.qAngleX = s.qAngleX
  pitch : t.qAngleY = -s.qAngleY

theorem Mirrored.errorOf {s t : Attitude} (h : Mirrored s t) (d : Sample) :
    errorOf t (mirror d) = mirrorVec (errorOf s d) := by
  unfold Filter.errorOf
  rw [h.q, gravity_mirrorQuat, mirror, unitOf_mirrorVec, cross_mirrorVec]

theorem Mirrored.integralOf {s t : Attitude} (h : Mirrored s t) (d : Sample) :
    integralOf t (mirror d) = mirrorVec (integralOf s d) := by
  unfold Filter.integralOf
  rw [h.errorOf, h.eInt]
  ext <;> simp only [mirrorVec] <;> ring

theorem Mirrored.rateOf {s t : Attitude} (h : Mirrored s t) (d : Sample) :
    rateOf t (mirror d) = mirrorVec (rateOf s d) := by
  unfold Filter.rateOf
  rw [h.errorOf, h.integralOf]
  ext <;> simp only [mirror, mirrorVec] <;> ring

theorem Mirrored.nextOf {s t : Attitude} (h : Mirrored s t) (d : Sample) :
    nextOf t (mirror d) = mirrorQuat (nextOf s d) := by
  unfold Filter.nextOf
  rw [h.rateOf, h.q, turned_mirrorQuat, normalised_mirrorQuat]

theorem mirrored_step (s t : Attitude) (d : Sample) (h : Mirrored s t) :
    Mirrored (imuUpdate s d).1 (imuUpdate t (mirror d)).1 := by
  rcases imuUpdate_cases s d with ⟨hd, hs⟩ | ⟨hd, hs⟩
  · rcases imuUpdate_cases t (mirror d) with ⟨-, ht⟩ | ⟨hd', -⟩
    · rwa [hs, ht]
    · exact absurd ((skipped_mirror d).mpr hd) hd'
  · rcases imuUpdate_cases t (mirror d) with ⟨hd', -⟩ | ⟨-, ht⟩
    · exact absurd ((skipped_mirror d).mp hd') hd
    · rw [hs, ht]
      refine ⟨h.nextOf d, h.integralOf d, ?_, ?_⟩
      · simp only [h.roll, h.rateOf d, mirrorVec]
      · simp only [h.nextOf d, pitchOf_mirrorQuat]

/-! ### The two outputs -/

theorem dutyOf_of_neg {pitch : ℚ} (h : pitch < 0) (ax : ℚ) : dutyOf pitch ax = 0 := by
  rw [dutyOf_eq, pwmDuty, if_pos h]

theorem dutyOf_zero (ax : ℚ) : dutyOf 0 ax = if ax < 0 then 100 else 0 := by
  rw [dutyOf_eq, pwmDuty, if_neg (lt_irrefl 0), if_neg (by norm_num)]
  split_ifs <;> norm_num

/-- The two outputs of a sample: at least one is off, or both are at full height. -/
def NotBoth (duty duty' : ℕ) : Prop := duty = 0 ∨ duty' = 0 ∨ duty = 100 ∧ duty' = 100

theorem notBoth_dutyOf (pitch ax : ℚ) : NotBoth (dutyOf pitch ax) (dutyOf (-pitch) ax) := by
  rcases lt_trichotomy pitch 0 with h | rfl | h
  · exact .inl (dutyOf_of_neg h ax)
  · rw [neg_zero, dutyOf_zero]
    split_ifs
    · exact .inr (.inr ⟨rfl, rfl⟩)
    · exact .inl rfl
  · exact .inr (.inl (dutyOf_of_neg (by linarith) ax))

theorem notBoth_step (s t : Attitude) (d : Sample) (h : Mirrored s t) :
    List.Forall₂ NotBoth (imuUpdate s d).2 (imuUpdate t (mirror d)).2 := by
  rcases imuUpdate_cases s d with ⟨hd, hs⟩ | ⟨hd, hs⟩
  · rcases imuUpdate_cases t (mirror d) with ⟨-, ht⟩ | ⟨hd', -⟩
    · rw [hs, ht]
      exact .nil
    · exact absurd ((skipped_mirror d).mpr hd) hd'
  · rcases imuUpdate_cases t (mirror d) with ⟨hd', -⟩ | ⟨-, ht⟩
    · exact absurd ((skipped_mirror d).mp hd') hd
    · have hax : (unitOf (mirror d).accelerate).X = (unitOf d.accelerate).X := by
        rw [mirror, unitOf_mirrorVec, mirrorVec]
      rw [hs, ht, h.nextOf d, pitchOf_mirrorQuat, hax]
      exact .cons (notBoth_dutyOf _ _) .nil

/-! ### The yaw -/

/-- The coordinates that `Q_ANGLE_Z` is computed from. -/
def yawY (q : Quat) : ℚ := 2 * q.q1 * q.q2 - 2 * q.q0 * q.q3

/-- And the other one. -/
def yawX (q : Quat) : ℚ := -2 * q.q2 * q.q2 - 2 * q.q3 * q.q3 + 1

/-- The yaw in the state is the one of the attitude. -/
def YawOf (s : Attitude) : Prop := s.qAngleZ = atan2fApprox (yawY s.q) (yawX s.q) * 57.3

theorem yawOf_start : YawOf start := by
  norm_num [YawOf, start, yawY, yawX, atan2fApprox, atanApprox]

theorem yawOf_step (s : Attitude) (d : Sample) (h : YawOf s) : YawOf (imuUpdate s d).1 := by
  rcases imuUpdate_cases s d with ⟨-, hs⟩ | ⟨-, hs⟩
  · rwa [hs]
  · rw [hs]
    rfl

theorem atan2fApprox_axis (x : ℚ) : atan2fApprox 0 x = if x < 0 then 3.14159265 else 0 := by
  have hslope : atanApprox 0 = 0 := by norm_num [atanApprox]
  by_cases h : x = 0
  · rw [h]
    norm_num [atan2fApprox]
  · simp only [atan2fApprox, if_neg h, zero_div, hslope, le_refl, if_true, zero_add]

/-- Where the yaw of the sensor turned over is the opposite one. -/
def Opposite (q : Quat) : Prop :=
  (yawY q = 0 ∧ 0 ≤ yawX q) ∨ (yawY q ≠ 0 ∧ (yawX q = 0 ∨ |yawY q / yawX q| ≤ 1))

theorem atan2fApprox_neg_iff (q : Quat) : atan2fApprox (-yawY q) (yawX q) =
    -atan2fApprox (yawY q) (yawX q) ↔ Opposite q := by
  by_cases hy : yawY q = 0
  · rw [hy, neg_zero, atan2fApprox_axis]
    have hiff : Opposite q ↔ 0 ≤ yawX q := by simp [Opposite, hy]
    rw [hiff]
    split_ifs with hx
    · norm_num
      exact hx
    · simpa using hx
  · have hiff : Opposite q ↔ yawX q = 0 ∨ |yawY q / yawX q| ≤ 1 := by simp [Opposite, hy]
    rw [hiff, ← atan2fApprox_cancel_iff hy, add_eq_zero_iff_eq_neg]

theorem yawY_mirrorQuat (q : Quat) : yawY (mirrorQuat q) = -yawY q := by
  simp only [yawY, mirrorQuat]
  ring

theorem yawX_mirrorQuat (q : Quat) : yawX (mirrorQuat q) = yawX q := by
  simp only [yawX, mirrorQuat]
  ring

/-! ### Every run -/

/-- **The sensor turned over**, over the exact rationals. After the mirrored samples the filter is
in the mirrored attitude, with the same roll and the opposite pitch; the two outputs are never on
together below full height; and the yaw is the opposite one exactly where the approximation of the
arctangent is odd. -/
theorem mirrored_run (ds : List Sample) :
    Mirrored (final imuUpdate start ds) (final imuUpdate start (ds.map mirror)) ∧
      List.Forall₂ NotBoth (outs imuUpdate start ds) (outs imuUpdate start (ds.map mirror)) ∧
      ((final imuUpdate start (ds.map mirror)).qAngleZ = -(final imuUpdate start ds).qAngleZ ↔
        Opposite (final imuUpdate start ds).q) := by
  have hstart : Mirrored start start := by
    refine ⟨?_, ?_, rfl, ?_⟩ <;> simp [start, mirrorQuat, mirrorVec]
  have hrun := final_related mirrored_step hstart ds
  refine ⟨hrun, outs_related mirrored_step notBoth_step hstart ds, ?_⟩
  have hyaw := final_invariant yawOf_step yawOf_start ds
  have hyaw' := final_invariant yawOf_step yawOf_start (ds.map mirror)
  unfold YawOf at hyaw hyaw'
  rw [hyaw, hyaw', hrun.q, yawY_mirrorQuat, yawX_mirrorQuat, ← neg_mul, ← atan2fApprox_neg_iff]
  exact mul_left_inj' (by norm_num)

end BleHidUart.Imu.Mirror
