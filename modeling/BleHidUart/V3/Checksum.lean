import BleHidUart.Lib.Checksum
import BleHidUart.V3.Handlers

/-!
# What the V3 checksum detects

`V3_crc_calculate` is the position-weighted sum of the covered bytes modulo `2^16`
(`v3CrcCalculate_eq`). A weight and a byte are at most 255, so that their product stays below
`2^16`: a frame that is accepted is rejected with one other byte, and with two different covered
bytes exchanged (`checksum_detects`). The offset of the CRC has 8 bits: behind 254 or 255 covered
bytes it wraps around to the head of the frame, and the CRC bytes are never looked at
(`crc_out_of_reach`).
-/

namespace BleHidUart.V3.Checksum

open BleHidUart.Lib.Checksum BleHidUart.Lib.Word BleHidUart.V3.Bridge BleHidUart.V3.Handlers

/-! ### The sum -/

/-- The bytes `V3_crc_calculate` covers. -/
abbrev covered (frame : List UInt8) (n : ℕ) : List UInt8 := (frame.drop 2).take n

abbrev values (bs : List UInt8) : List ℕ := bs.map UInt8.toNat

theorem v3CrcLoop_eq (bs : List UInt8) (crc : UInt16) (w : ℕ) :
    v3CrcLoop crc (UInt16.ofNat w) bs = crc + UInt16.ofNat (weightedSum w (values bs)) := by
  induction bs generalizing crc w with
  | nil => exact (UInt16.add_zero crc).symm
  | cons b bs ih =>
    have hbyte : b.toUInt16 = UInt16.ofNat b.toNat := (UInt16.ofNat_uInt8ToNat b).symm
    have hw : UInt16.ofNat w + 1 = UInt16.ofNat (w + 1) := (UInt16.ofNat_add w 1).symm
    have hsum : weightedSum w (values (b :: bs)) = w * b.toNat + weightedSum (w + 1) (values bs) :=
      rfl
    rw [v3CrcLoop, hw, ih, hsum, UInt16.ofNat_add, UInt16.ofNat_mul, hbyte, UInt16.add_assoc]

theorem v3CrcCalculate_eq (frame : List UInt8) (n : UInt8) :
    v3CrcCalculate frame n = UInt16.ofNat (weightedSum 1 (values (covered frame n.toNat))) := by
  have h := v3CrcLoop_eq (covered frame n.toNat) 0 1
  rwa [UInt16.zero_add] at h

/-! ### Accepted frames -/

/-- `V3_crc_verify` accepts the frame, with the CRC right behind `n` covered bytes. -/
abbrev Accepts (n : UInt8) (frame : List UInt8) : Prop := v3CrcVerify frame n (n + 2) = true

theorem toNat_crcOffset {n : UInt8} (hn : n ≤ 253) : (n + 2).toNat = n.toNat + 2 := by
  have hle : n.toNat ≤ 253 := UInt8.le_iff_toNat_le.mp hn
  rw [UInt8.toNat_add]
  exact Nat.mod_eq_of_lt (by show n.toNat + 2 < 256; omega)

theorem accepts_iff {n : UInt8} (hn : n ≤ 253) (frame : List UInt8) : Accepts n frame ↔
    byteAt frame (n.toNat + 2) = (v3CrcCalculate frame n &&& 0xFF).toUInt8 ∧
      byteAt frame (n.toNat + 3) = ((v3CrcCalculate frame n >>> 8) &&& 0xFF).toUInt8 := by
  unfold Accepts v3CrcVerify
  rw [toNat_crcOffset hn]
  exact decide_eq_true_iff

section Bytes
variable {frame : List UInt8} {n : ℕ}

theorem byteAt_set_ne {bs : List UInt8} {i j : ℕ} {b : UInt8} (h : i ≠ j) :
    byteAt (bs.set i b) j = byteAt bs j := by
  simp only [byteAt, List.getD_eq_getElem?_getD, List.getElem?_set_ne h]

theorem byteAt_set_self {bs : List UInt8} {i : ℕ} {b : UInt8} (h : i < bs.length) :
    byteAt (bs.set i b) i = b := by
  simp only [byteAt, List.getD_eq_getElem?_getD, List.getElem?_set_self h, Option.getD_some]

theorem covered_set (i : ℕ) (b : UInt8) :
    covered (frame.set (2 + i) b) n = (covered frame n).set i b := by
  rw [covered, List.drop_set, if_neg (by omega), Nat.add_sub_cancel_left, List.take_set]

theorem covered_set_crc {i : ℕ} (h : n + 2 ≤ i) (b : UInt8) :
    covered (frame.set i b) n = covered frame n := by
  rw [covered, List.drop_set, if_neg (by omega), List.take_set_of_le (by omega)]

theorem getD_values (bs : List UInt8) (i : ℕ) : (values bs).getD i 0 = (byteAt bs i).toNat :=
  List.getD_map bs 0 UInt8.toNat

theorem byteAt_covered {i : ℕ} (h : i < n) : byteAt (covered frame n) i = byteAt frame (2 + i) := by
  rw [byteAt_take h]
  simp only [byteAt, List.getD_eq_getElem?_getD, List.getElem?_drop]

theorem getD_covered {i : ℕ} (h : i < n) :
    (values (covered frame n)).getD i 0 = (byteAt frame (2 + i)).toNat := by
  rw [getD_values, byteAt_covered h]

theorem length_covered (h : n + 2 ≤ frame.length) : (covered frame n).length = n := by
  rw [covered, List.length_take_of_le]
  rw [List.length_drop]
  omega

theorem covered_exchange {i j : ℕ} (hi : i < n) (hj : j < n) :
    values (covered (exchange 0 frame (2 + i) (2 + j)) n) =
      exchange 0 (values (covered frame n)) i j := by
  rw [exchange, covered_set, covered_set, values, List.map_set, List.map_set, exchange,
    getD_covered hi, getD_covered hj]

end Bytes

/-! ### Detection -/

/-- A weight and a byte give less than `2^16`. -/
theorem weight_mul_lt {w : ℕ} (hw : w ≤ 255) (b : UInt8) : w * b.toNat < 2 ^ 16 := by
  have hb := b.toNat_lt
  calc w * b.toNat ≤ 255 * 255 := Nat.mul_le_mul hw (by omega)
    _ < 2 ^ 16 := by decide

section Frames
variable {n : UInt8} (hn : n ≤ 253) {frame frame' : List UInt8}
include hn

/-- Two accepted frames with the same CRC bytes have the same sum modulo `2^16`. -/
theorem modEq_of_accepts (h : Accepts n frame) (h' : Accepts n frame')
    (hlow : byteAt frame' (n.toNat + 2) = byteAt frame (n.toNat + 2))
    (hhigh : byteAt frame' (n.toNat + 3) = byteAt frame (n.toNat + 3)) :
    weightedSum 1 (values (covered frame' n.toNat)) ≡
      weightedSum 1 (values (covered frame n.toNat)) [MOD 2 ^ 16] := by
  obtain ⟨h1, h2⟩ := (accepts_iff hn frame).mp h
  obtain ⟨h1', h2'⟩ := (accepts_iff hn frame').mp h'
  have hcalc : v3CrcCalculate frame' n = v3CrcCalculate frame n :=
    eq_of_bytes16 (by rw [← h1, ← h1', hlow]) (by rw [← h2, ← h2', hhigh])
  rw [v3CrcCalculate_eq, v3CrcCalculate_eq] at hcalc
  have hnat := congrArg UInt16.toNat hcalc
  rwa [UInt16.toNat_ofNat', UInt16.toNat_ofNat'] at hnat

theorem not_accepts_set (hlen : n.toNat + 4 ≤ frame.length) (hok : Accepts n frame) {i : ℕ}
    (hi : i < n.toNat) {b : UInt8} (hb : b ≠ byteAt frame (2 + i)) :
    ¬ Accepts n (frame.set (2 + i) b) := by
  intro h
  have hbound := n.toNat_lt
  have hmod := modEq_of_accepts hn hok h (byteAt_set_ne (by omega)) (byteAt_set_ne (by omega))
  have hcov : (covered frame n.toNat).length = n.toNat := length_covered (by omega)
  have hold : (values (covered frame n.toNat)).getD i 0 = (byteAt frame (2 + i)).toNat :=
    getD_covered hi
  rw [covered_set, values, List.map_set] at hmod
  have hsame := eq_of_modEq_set (by rw [List.length_map, hcov]; exact hi) (by omega)
    (by rw [hold]; exact weight_mul_lt (by omega) _) (weight_mul_lt (by omega) b) hmod
  rw [hold] at hsame
  exact hb (UInt8.toNat_inj.mp hsame)

theorem not_accepts_set_crc (hlen : n.toNat + 4 ≤ frame.length) (hok : Accepts n frame) {i : ℕ}
    (hi : i = n.toNat + 2 ∨ i = n.toNat + 3) {b : UInt8} (hb : b ≠ byteAt frame i) :
    ¬ Accepts n (frame.set i b) := by
  intro h
  have hcalc : v3CrcCalculate (frame.set i b) n = v3CrcCalculate frame n := by
    rw [v3CrcCalculate_eq, v3CrcCalculate_eq, covered_set_crc (by omega)]
  obtain ⟨hlow, hhigh⟩ := (accepts_iff hn frame).mp hok
  obtain ⟨hlow', hhigh'⟩ := (accepts_iff hn _).mp h
  rw [hcalc] at hlow' hhigh'
  rcases hi with rfl | rfl
  · rw [byteAt_set_self (by omega)] at hlow'
    exact hb (hlow'.trans hlow.symm)
  · rw [byteAt_set_self (by omega)] at hhigh'
    exact hb (hhigh'.trans hhigh.symm)

theorem not_accepts_exchange (hlen : n.toNat + 4 ≤ frame.length) (hok : Accepts n frame) {i j : ℕ}
    (hij : i < j) (hj : j < n.toNat) (hne : byteAt frame (2 + i) ≠ byteAt frame (2 + j)) :
    ¬ Accepts n (exchange 0 frame (2 + i) (2 + j)) := by
  intro h
  have hbound := n.toNat_lt
  have hcrc : ∀ k, 2 + j < k → byteAt (exchange 0 frame (2 + i) (2 + j)) k = byteAt frame k := by
    intro k hk
    rw [exchange, byteAt_set_ne (by omega), byteAt_set_ne (by omega)]
  have hmod := modEq_of_accepts hn hok h (hcrc _ (by omega)) (hcrc _ (by omega))
  have hcov : (covered frame n.toNat).length = n.toNat := length_covered (by omega)
  rw [covered_exchange (hij.trans hj) hj] at hmod
  have hsame := eq_of_modEq_exchange hij (by rw [List.length_map, hcov]; exact hj)
    (by rw [getD_covered (hij.trans hj)]; exact weight_mul_lt (by omega) _)
    (by rw [getD_covered hj]; exact weight_mul_lt (by omega) _) hmod
  rw [getD_covered (hij.trans hj), getD_covered hj] at hsame
  exact hne (UInt8.toNat_inj.mp hsame)

end Frames

/-- A frame that is accepted over `n` bytes is rejected with any other covered byte or CRC byte, and
with any two different covered bytes exchanged. -/
def Detects (n : UInt8) : Prop :=
  ∀ frame : List UInt8, n.toNat + 4 ≤ frame.length → v3CrcVerify frame n (n + 2) →
    (∀ i b, 2 ≤ i → i < n.toNat + 4 → b ≠ byteAt frame i →
      ¬ v3CrcVerify (frame.set i b) n (n + 2)) ∧
    ∀ i j, 2 ≤ i → i < j → j < n.toNat + 2 → byteAt frame i ≠ byteAt frame j →
      ¬ v3CrcVerify ((frame.set i (byteAt frame j)).set j (byteAt frame i)) n (n + 2)

/-- **What the checksum detects**, over up to 253 bytes. -/
theorem checksum_detects {n : UInt8} (hn : n ≤ 253) : Detects n := by
  intro frame hlen hok
  constructor
  · intro i b hlo hhi hb
    by_cases hcrc : n.toNat + 2 ≤ i
    · exact not_accepts_set_crc hn hlen hok (by omega) hb
    · obtain ⟨k, rfl⟩ := Nat.exists_eq_add_of_le hlo
      exact not_accepts_set hn hlen hok (by omega) hb
  · intro i j hlo hij hj hne
    obtain ⟨k, rfl⟩ := Nat.exists_eq_add_of_le hlo
    obtain ⟨l, rfl⟩ := Nat.exists_eq_add_of_le (hlo.trans hij.le)
    exact not_accepts_exchange hn hlen hok (by omega) (by omega) hne

/-- A read frame with another register number. -/
theorem checksum_detects_grp : ¬ v3CrcVerify
    [0x53, 0x35, 0x0F, 0x03, 0, 0, 0, 0, 0, 0, 0, 0, 0, 0, 0, 0, 0, 0, 0x13, 0x00] 16 18 := by
  have hok : v3CrcVerify
      [0x53, 0x35, 0x0F, 0x02, 0, 0, 0, 0, 0, 0, 0, 0, 0, 0, 0, 0, 0, 0, 0x13, 0x00] 16 18 := by
        decide
  exact (checksum_detects (n := 16) (by decide) _ (by decide) hok).1 3 0x03 (by decide) (by decide)
    (by decide)

/-- **The CRC out of reach**: behind 254 covered bytes, the offset of the CRC is 0, and a frame of
zeros is accepted whatever its CRC bytes are. -/
theorem crc_out_of_reach : ¬ ∀ n : UInt8, Detects n := by
  intro hall
  have h := (hall 254 (List.replicate 258 0) (by decide +kernel) (by decide +kernel)).1 256 0x01
    (by decide) (by decide) (by decide +kernel)
  exact h (by decide +kernel)

end BleHidUart.V3.Checksum
