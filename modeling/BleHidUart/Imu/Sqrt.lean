import BleHidUart.Lib.Binary32
import BleHidUart.Lib.Newton
import Mathlib.Analysis.Real.Sqrt

/-!
# The square root of the attitude solver

`sqrtf_approx` halves the bits of the argument for a first guess and takes two Newton steps. The
bits are those of single precision, and halved as an integer; the steps are taken over the exact
rationals.

`sqrtf_accuracy`: on a normal argument the guess is normal, too, and the result is the square root
up to `1 / 10 ^ 6` of it, and never below it. The bounds on the guess and on the result hold on
every positive rational, with an exponent of any size (`sqrtGuess_near`, `sqrtfApprox_near`).
-/

namespace BleHidUart.Imu.Sqrt

open BleHidUart.Lib.Binary32 BleHidUart.Lib.Newton

/-! ### The source -/

/-- The bits of the first guess of `sqrtf_approx`. -/
def guessBits (x : ℚ) : ℤ := 0x1FBD3F7D + (toBits x >>> (1 : ℕ))

/-- The first guess of `sqrtf_approx`. -/
def sqrtGuess (x : ℚ) : ℚ := ofBits (guessBits x)

/-- `sqrtf_approx`. -/
def sqrtfApprox (x : ℚ) : ℚ :=
  if x ≤ 0 then 0
  else
    let y := sqrtGuess x
    let y := (y + x / y) * 0.5
    (y + x / y) * 0.5

/-! ### The guess -/

theorem guessBits_normal {x : ℚ} (hx : Normal x) : Normal (sqrtGuess x) := by
  obtain ⟨i, hlow, hup, rfl⟩ := hx
  have hbits : guessBits (ofBits i) = 0x1FBD3F7D + i / 2 := by
    rw [guessBits, toBits_ofBits, Int.shiftRight_eq_div_pow]
    rfl
  exact ⟨guessBits (ofBits i), by omega, by omega, rfl⟩

/-- The exponent of the guess for `2 ^ (2 * k + r) * (1 + m)` is halved, and its mantissa is a line,
up to the bits that are cut off. -/
theorem exists_guess {x m : ℚ} {k r : ℤ} (hm : 0 ≤ m) (hm' : m < 1) (hr : r = 0 ∨ r = 1)
    (hxm : x = 2 ^ (2 * k + r) * (1 + m)) : ∃ t : ℚ, (r + m) / 2 - 180356 / 2 ^ 23 ≤ t ∧
      t ≤ (r + m) / 2 - 180355 / 2 ^ 23 ∧
      sqrtGuess x = 2 ^ k * if 0 ≤ t then 1 + t else 1 + t / 2 := by
  have hlog : Int.log 2 x = 2 * k + r := by rw [hxm, log_eq hm hm']
  have hpow : (2 : ℚ) ^ (2 * k + r) ≠ 0 := zpow_ne_zero _ (by norm_num)
  have hman : x / 2 ^ (2 * k + r) - 1 = m := by
    rw [hxm, mul_div_cancel_left₀ _ hpow]
    ring
  set M : ℤ := ⌊m * 2 ^ 23⌋ with hM
  have hM0 : 0 ≤ M := Int.floor_nonneg.mpr (by positivity)
  have hM1 : M < 2 ^ 23 := by
    rw [hM, Int.floor_lt]
    push_cast
    linarith
  -- the bits of the exponent and those of the mantissa, both cut in half
  have hbits : guessBits x = (k + 127) * 2 ^ 23 + (r * 2 ^ 22 + M / 2 - 180355) := by
    rw [guessBits, toBits, hlog, hman, Int.shiftRight_eq_div_pow]
    rcases hr with rfl | rfl <;> omega
  have hM2 : (M : ℚ) / 2 - 1 / 2 ≤ (M / 2 : ℤ) ∧ ((M / 2 : ℤ) : ℚ) ≤ M / 2 := by
    have h1 : (M : ℚ) ≤ 2 * (M / 2 : ℤ) + 1 := by exact_mod_cast (by omega : M ≤ 2 * (M / 2) + 1)
    have h2 : (2 : ℚ) * (M / 2 : ℤ) ≤ M := by exact_mod_cast (by omega : 2 * (M / 2) ≤ M)
    constructor <;> linarith
  have hfl : (M : ℚ) ≤ m * 2 ^ 23 := Int.floor_le _
  have hfl' : m * 2 ^ 23 < M + 1 := Int.lt_floor_add_one _
  refine ⟨((r * 2 ^ 22 + M / 2 - 180355 : ℤ) : ℚ) / 2 ^ 23, ?_, ?_, ?_⟩
  · rw [le_div_iff₀ (by norm_num)]
    push_cast
    linarith [hM2.1]
  · rw [div_le_iff₀ (by norm_num)]
    push_cast
    linarith [hM2.2]
  · rw [sqrtGuess, hbits, ofBits_eq (by rcases hr with rfl | rfl <;> omega)
      (by rcases hr with rfl | rfl <;> omega)]
    have hsign : (0 : ℚ) ≤ ((r * 2 ^ 22 + M / 2 - 180355 : ℤ) : ℚ) / 2 ^ 23 ↔
        0 ≤ r * 2 ^ 22 + M / 2 - 180355 := by
      rw [le_div_iff₀ (by norm_num), zero_mul]
      exact Int.cast_nonneg_iff
    have hhalf : ∀ z : ℚ, z / 2 ^ 24 = z / 2 ^ 23 / 2 := fun z => by ring
    simp only [hsign, hhalf]

/-- What the line may be off by. -/
theorem abs_line_sub_le {t m r : ℚ} (hm : 0 ≤ m) (hm' : m < 1) (hr : r = 0 ∨ r = 1)
    (hlow : (r + m) / 2 - 180356 / 2 ^ 23 ≤ t) (hup : t ≤ (r + m) / 2 - 180355 / 2 ^ 23) :
    |(if 0 ≤ t then 1 + t else 1 + t / 2) ^ 2 - (1 + r) * (1 + m)| ≤
      1 / 10 * ((1 + r) * (1 + m)) := by
  obtain ⟨d, hd⟩ : ∃ d, t = (r + m) / 2 - d := ⟨(r + m) / 2 - t, by ring⟩
  have hd1 : 180355 / 2 ^ 23 ≤ d := by linarith
  have hd2 : d ≤ 180356 / 2 ^ 23 := by linarith
  norm_num at hd1 hd2
  rw [abs_le]
  rcases hr with rfl | rfl
  · split_ifs with h
    · subst hd
      constructor <;> nlinarith
    · subst hd
      constructor <;> nlinarith
  · have h : 0 ≤ t := by linarith
    rw [if_pos h]
    subst hd
    constructor <;> nlinarith

/-- **The first guess** is off by at most a tenth of the square. -/
theorem sqrtGuess_near {x : ℚ} (hx : 0 < x) : Near (1 / 10) x (sqrtGuess x) := by
  obtain ⟨m, hm, hm', hxm⟩ := exists_mantissa hx
  obtain ⟨k, r, hlog, hr⟩ : ∃ k r : ℤ, Int.log 2 x = 2 * k + r ∧ (r = 0 ∨ r = 1) :=
    ⟨Int.log 2 x / 2, Int.log 2 x % 2, by omega, by omega⟩
  have hr' : (r : ℚ) = 0 ∨ (r : ℚ) = 1 := by
    rcases hr with rfl | rfl
    · exact .inl rfl
    · exact .inr rfl
  rw [hlog] at hxm
  obtain ⟨t, hlow, hup, hguess⟩ := exists_guess hm hm' hr hxm
  have hx2 : x = (2 ^ k) ^ 2 * ((1 + r) * (1 + m)) := by
    have hpow : (2 : ℚ) ^ (2 * k + r) = (2 ^ k) ^ 2 * (1 + r) := by
      rw [zpow_add₀ (by norm_num), mul_comm 2 k, zpow_mul]
      rcases hr with rfl | rfl
      · norm_num
      · norm_num
    rw [hxm, hpow]
    ring
  have hline := abs_line_sub_le hm hm' hr' hlow hup
  have hw : (0 : ℚ) < if 0 ≤ t then 1 + t else 1 + t / 2 := by
    have : -1 < t := by
      norm_num at hlow
      rcases hr' with h | h <;> rw [h] at hlow <;> linarith
    split_ifs <;> linarith
  generalize (if 0 ≤ t then 1 + t else 1 + t / 2) = w at hguess hline hw
  have hk : (0 : ℚ) < 2 ^ k := zpow_pos (by norm_num) k
  rw [hguess]
  refine ⟨mul_pos hk hw, ?_⟩
  have hdiff : (2 ^ k * w) ^ 2 - x = (2 ^ k) ^ 2 * (w ^ 2 - (1 + r) * (1 + m)) := by
    rw [hx2]
    ring
  rw [hdiff, abs_mul, abs_of_pos (by positivity)]
  calc (2 ^ k) ^ 2 * |w ^ 2 - (1 + r) * (1 + m)|
      ≤ (2 ^ k) ^ 2 * (1 / 10 * ((1 + r) * (1 + m))) :=
    mul_le_mul_of_nonneg_left hline (by positivity)
    _ = 1 / 10 * x := by rw [hx2]; ring

/-! ### The result -/

theorem sqrtfApprox_of_pos {x : ℚ} (hx : 0 < x) :
    sqrtfApprox x = sqrtStep x (sqrtStep x (sqrtGuess x)) := by
  unfold sqrtfApprox sqrtStep
  rw [if_neg (not_le.mpr hx)]
  norm_num
  ring

/-- **Two Newton steps** leave an error of at most `2 / 10 ^ 6` of the square, and it is not
negative. -/
theorem sqrtfApprox_near {x : ℚ} (hx : 0 < x) :
    0 < sqrtfApprox x ∧ x ≤ sqrtfApprox x ^ 2 ∧ sqrtfApprox x ^ 2 ≤ (1 + 2 / 10 ^ 6) * x := by
  have hone : Near (1 / 360) x (sqrtStep x (sqrtGuess x)) :=
    ((sqrtGuess_near hx).step hx (by norm_num)).mono hx (by norm_num)
  have htwo : Near (2 / 10 ^ 6) x (sqrtStep x (sqrtStep x (sqrtGuess x))) :=
    (hone.step hx (by norm_num)).mono hx (by norm_num)
  rw [sqrtfApprox_of_pos hx]
  refine ⟨htwo.1, le_sq_sqrtStep x hone.1.ne', ?_⟩
  have := (abs_le.mp htwo.2).2
  linarith

/-- **The square root on normal arguments**: the guess is normal, and the result is never below the
root, and above it by at most `1 / 10 ^ 6` of it. -/
theorem sqrtf_accuracy {x : ℚ} (hx : Normal x) : Normal (sqrtGuess x) ∧
    Real.sqrt x ≤ sqrtfApprox x ∧ (sqrtfApprox x : ℝ) ≤ (1 + 1 / 10 ^ 6) * Real.sqrt x := by
  obtain ⟨hpos, hlow, hup⟩ := sqrtfApprox_near hx.pos
  have hx' : (0 : ℝ) < x := by exact_mod_cast hx.pos
  have hpos' : (0 : ℝ) < sqrtfApprox x := by exact_mod_cast hpos
  have hlow' : (x : ℝ) ≤ (sqrtfApprox x : ℝ) ^ 2 := by exact_mod_cast hlow
  have hup' : (sqrtfApprox x : ℝ) ^ 2 ≤ (1 + 2 / 10 ^ 6) * x := by
    have hcast : ((sqrtfApprox x ^ 2 : ℚ) : ℝ) ≤ ((1 + 2 / 10 ^ 6) * x : ℚ) := Rat.cast_le.mpr hup
    push_cast at hcast
    exact hcast
  refine ⟨guessBits_normal hx, Real.sqrt_le_iff.mpr ⟨hpos'.le, hlow'⟩, ?_⟩
  refine le_of_sq_le_sq ?_ (by positivity)
  calc (sqrtfApprox x : ℝ) ^ 2
      ≤ (1 + 2 / 10 ^ 6) * x := hup'
    _ ≤ (1 + 1 / 10 ^ 6) ^ 2 * x := mul_le_mul_of_nonneg_right (by norm_num) hx'.le
    _ = ((1 + 1 / 10 ^ 6) * Real.sqrt x) ^ 2 := by rw [mul_pow, Real.sq_sqrt hx'.le]

/-- The root of 2, whose bits are `0x40000000`. -/
theorem sqrtf_accuracy_two : Normal (sqrtGuess 2) ∧ Real.sqrt (2 : ℚ) ≤ sqrtfApprox 2 ∧
    (sqrtfApprox 2 : ℝ) ≤ (1 + 1 / 10 ^ 6) * Real.sqrt (2 : ℚ) :=
  sqrtf_accuracy ⟨0x40000000, by norm_num, by norm_num, by norm_num [ofBits]⟩

end BleHidUart.Imu.Sqrt
