import Mathlib.Algebra.Order.Field.Power
import Mathlib.Data.Int.Log
import Mathlib.Data.Rat.Floor
import Mathlib.Tactic.FieldSimp
import Mathlib.Tactic.Linarith
import Mathlib.Tactic.NormNum
import Mathlib.Tactic.Positivity
import Mathlib.Tactic.Ring

/-!
# Positive single-precision numbers and their bits

A positive number is `2 ^ e * (1 + m)` with `0 ≤ m < 1` (`exists_mantissa`); its bits are the
exponent `e + 127` above 23 bits of `m`. `ofBits` reads bits as a number, `toBits` writes a number
as bits, and truncates `m`; both take any exponent. The *normal* numbers are those whose exponent
has 8 bits and is neither the least nor the greatest.
-/

namespace BleHidUart.Lib.Binary32

/-- The number with these bits. -/
def ofBits (i : ℤ) : ℚ := 2 ^ (i / 2 ^ 23 - 127) * (1 + (i % 2 ^ 23 : ℤ) / 2 ^ 23)

/-- The bits of a positive number. -/
def toBits (x : ℚ) : ℤ := (Int.log 2 x + 127) * 2 ^ 23 + ⌊(x / 2 ^ Int.log 2 x - 1) * 2 ^ 23⌋

/-- A positive normal number. -/
def Normal (x : ℚ) : Prop := ∃ i : ℤ, 2 ^ 23 ≤ i ∧ i < 255 * 2 ^ 23 ∧ x = ofBits i

theorem ofBits_pos (i : ℤ) : 0 < ofBits i := by
  have hman : (0 : ℚ) ≤ (i % 2 ^ 23 : ℤ) := by exact_mod_cast Int.emod_nonneg i (by norm_num)
  unfold ofBits
  positivity

theorem Normal.pos {x : ℚ} (h : Normal x) : 0 < x := by
  obtain ⟨i, -, -, rfl⟩ := h
  exact ofBits_pos i

theorem exists_mantissa {x : ℚ} (hx : 0 < x) :
    ∃ m, 0 ≤ m ∧ m < 1 ∧ x = 2 ^ Int.log 2 x * (1 + m) := by
  have hpow : (0 : ℚ) < 2 ^ Int.log 2 x := zpow_pos (by norm_num) _
  have hle : (2 : ℚ) ^ Int.log 2 x ≤ x := by
    have h := Int.zpow_log_le_self (b := 2) (by norm_num) hx
    push_cast at h
    exact h
  have hlt : x < 2 ^ Int.log 2 x * 2 := by
    have h := Int.lt_zpow_succ_log_self (b := 2) (by norm_num) x
    push_cast at h
    rwa [zpow_add_one₀ (by norm_num)] at h
  refine ⟨x / 2 ^ Int.log 2 x - 1, ?_, ?_, ?_⟩
  · rw [sub_nonneg, le_div_iff₀ hpow, one_mul]
    exact hle
  · rw [sub_lt_iff_lt_add, div_lt_iff₀ hpow]
    linarith
  · field_simp
    ring

/-- The exponent of a number is read off its mantissa. -/
theorem log_eq {e : ℤ} {m : ℚ} (hm : 0 ≤ m) (hm' : m < 1) :
    Int.log 2 ((2 : ℚ) ^ e * (1 + m)) = e := by
  have hpow : (0 : ℚ) < 2 ^ e := zpow_pos (by norm_num) e
  have hpos : (0 : ℚ) < 2 ^ e * (1 + m) := mul_pos hpow (by linarith)
  have hle : (2 : ℚ) ^ e ≤ 2 ^ e * (1 + m) := le_mul_of_one_le_right hpow.le (by linarith)
  have hlt : (2 : ℚ) ^ e * (1 + m) < 2 ^ (e + 1) := by
    rw [zpow_add_one₀ (by norm_num)]
    exact mul_lt_mul_of_pos_left (by linarith) hpow
  refine le_antisymm ?_ ?_
  · refine Int.lt_add_one_iff.mp ((Int.lt_zpow_iff_log_lt (by norm_num) hpos).mp ?_)
    exact_mod_cast hlt
  · refine (Int.zpow_le_iff_le_log (by norm_num) hpos).mp ?_
    exact_mod_cast hle

/-- **The bits of a number are those it was read from.** -/
theorem toBits_ofBits (i : ℤ) : toBits (ofBits i) = i := by
  have hpow : (2 : ℚ) ^ (i / 2 ^ 23 - 127) ≠ 0 := zpow_ne_zero _ (by norm_num)
  have hm : (0 : ℚ) ≤ ((i % 2 ^ 23 : ℤ) : ℚ) / 2 ^ 23 := by
    have h : (0 : ℚ) ≤ (i % 2 ^ 23 : ℤ) := by exact_mod_cast Int.emod_nonneg i (by norm_num)
    positivity
  have hm' : ((i % 2 ^ 23 : ℤ) : ℚ) / 2 ^ 23 < 1 := by
    have h : ((i % 2 ^ 23 : ℤ) : ℚ) < 2 ^ 23 := by
      exact_mod_cast Int.emod_lt_of_pos i (by norm_num : (0 : ℤ) < 2 ^ 23)
    rw [div_lt_one (by norm_num)]
    exact h
  have hlog : Int.log 2 (ofBits i) = i / 2 ^ 23 - 127 := log_eq hm hm'
  have hman : (ofBits i / 2 ^ (i / 2 ^ 23 - 127) - 1) * 2 ^ 23 = (i % 2 ^ 23 : ℤ) := by
    unfold ofBits
    field_simp
    ring
  unfold toBits
  rw [hlog, hman, Int.floor_intCast]
  omega

/-- Bits above and below a power of two: the mantissa counts half below it. -/
theorem ofBits_eq {k t : ℤ} (ht : -2 ^ 23 ≤ t) (ht' : t < 2 ^ 23) :
    ofBits ((k + 127) * 2 ^ 23 + t) =
      2 ^ k * if 0 ≤ t then 1 + (t : ℚ) / 2 ^ 23 else 1 + (t : ℚ) / 2 ^ 24 := by
  unfold ofBits
  by_cases h : 0 ≤ t
  · have hexp : ((k + 127) * 2 ^ 23 + t) / 2 ^ 23 - 127 = k := by omega
    have hman : ((k + 127) * 2 ^ 23 + t) % 2 ^ 23 = t := by omega
    rw [if_pos h, hexp, hman]
  · have hexp : ((k + 127) * 2 ^ 23 + t) / 2 ^ 23 - 127 = k - 1 := by omega
    have hman : ((k + 127) * 2 ^ 23 + t) % 2 ^ 23 = t + 2 ^ 23 := by omega
    rw [if_neg h, hexp, hman, zpow_sub_one₀ (by norm_num)]
    push_cast
    ring

end BleHidUart.Lib.Binary32
