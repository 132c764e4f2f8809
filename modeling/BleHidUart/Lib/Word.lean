import Mathlib.Data.List.GetD
import Mathlib.Data.Nat.Bitwise
import Mathlib.Tactic.Common
import Mathlib.Tactic.NormNum

/-!
# Little-endian words

`le32` and `le16` put bytes together, low byte first, and `byte32 x k` takes the byte `k` of a word
out again; the bytes of a word give it back (`le32_byte32`, `le16_bytes`). The arithmetic of
fixed-width words is carried over to the naturals: `toNat_le32`, `toNat_sub_of_le`.
-/

namespace BleHidUart.Lib.Word

/-- A 16-bit word from its bytes, low byte first. -/
def le16 (a b : UInt8) : UInt16 := a.toUInt16 ||| (b.toUInt16 <<< 8)

/-- A 32-bit word from its bytes, low byte first. -/
def le32 (a b c d : UInt8) : UInt32 :=
  a.toUInt32 ||| (b.toUInt32 <<< 8) ||| (c.toUInt32 <<< 16) ||| (d.toUInt32 <<< 24)

/-- The byte `k` of a 32-bit word. -/
def byte32 (x : UInt32) (k : UInt32) : UInt8 := ((x >>> (8 * k)) &&& 0xFF).toUInt8

/-- The byte `i` of a buffer, `0` out of range. -/
abbrev byteAt (bs : List UInt8) (i : ℕ) : UInt8 := bs.getD i 0

/-- The 32-bit word that starts at index `i` of a buffer. -/
def le32At (bs : List UInt8) (i : ℕ) : UInt32 :=
  le32 (byteAt bs i) (byteAt bs (i + 1)) (byteAt bs (i + 2)) (byteAt bs (i + 3))

/-! ### Values -/

theorem byteAt_take {bs : List UInt8} {i n : ℕ} (h : i < n) :
    byteAt (bs.take n) i = byteAt bs i := by
  simp only [byteAt, List.getD_eq_getElem?_getD, List.getElem?_take, if_pos h]

/-- Bits that do not overlap are added. -/
theorem or_shiftLeft {a b k : ℕ} (h : a < 2 ^ k) : a ||| b <<< k = a + b * 2 ^ k := by
  rw [Nat.or_comm, Nat.shiftLeft_eq, Nat.mul_comm, ← Nat.two_pow_add_eq_or_of_lt h, Nat.add_comm]

theorem toNat_toUInt32_shiftLeft (b : UInt8) {k : UInt32} (h : k.toNat ≤ 24) :
    (b.toUInt32 <<< k).toNat = b.toNat <<< k.toNat := by
  have hb := b.toNat_lt
  rw [UInt32.toNat_shiftLeft, UInt8.toNat_toUInt32, Nat.mod_eq_of_lt (by omega : k.toNat < 32),
    Nat.shiftLeft_eq]
  refine Nat.mod_eq_of_lt ?_
  calc b.toNat * 2 ^ k.toNat ≤ b.toNat * 2 ^ 24 :=
        Nat.mul_le_mul_left _ (Nat.pow_le_pow_right (by norm_num) h)
    _ < 2 ^ 32 := by omega

theorem toNat_le32 (a b c d : UInt8) : (le32 a b c d).toNat =
    a.toNat + b.toNat * 2 ^ 8 + c.toNat * 2 ^ 16 + d.toNat * 2 ^ 24 := by
  have ha := a.toNat_lt
  have hb := b.toNat_lt
  have hc := c.toNat_lt
  have h8 : (8 : UInt32).toNat = 8 := rfl
  have h16 : (16 : UInt32).toNat = 16 := rfl
  have h24 : (24 : UInt32).toNat = 24 := rfl
  have hab : a.toNat ||| b.toNat <<< 8 = a.toNat + b.toNat * 2 ^ 8 := or_shiftLeft (by omega)
  have habc : (a.toNat + b.toNat * 2 ^ 8) ||| c.toNat <<< 16 =
      a.toNat + b.toNat * 2 ^ 8 + c.toNat * 2 ^ 16 := or_shiftLeft (by omega)
  simp only [le32, UInt32.toNat_or, UInt8.toNat_toUInt32]
  rw [toNat_toUInt32_shiftLeft b (by omega), toNat_toUInt32_shiftLeft c (by omega),
    toNat_toUInt32_shiftLeft d (by omega), h8, h16, h24, hab, habc, or_shiftLeft (by omega)]

theorem toNat_byte32 (x k : UInt32) (h : k.toNat < 4) :
    (byte32 x k).toNat = x.toNat / 2 ^ (8 * k.toNat) % 256 := by
  have hk : (8 * k).toNat = 8 * k.toNat := by
    rw [UInt32.toNat_mul, show (8 : UInt32).toNat = 8 from rfl]; omega
  simp only [byte32, UInt32.toNat_toUInt8, UInt32.toNat_and, UInt32.toNat_shiftRight]
  rw [show (255 : UInt32).toNat = 2 ^ 8 - 1 from rfl, Nat.and_two_pow_sub_one_eq_mod, hk,
    Nat.mod_mod, Nat.mod_eq_of_lt (by omega : 8 * k.toNat < 32), Nat.shiftRight_eq_div_pow]

/-- **A word is put together from its bytes.** -/
theorem le32_byte32 (x : UInt32) :
    le32 (byte32 x 0) (byte32 x 1) (byte32 x 2) (byte32 x 3) = x := by
  apply UInt32.toNat_inj.mp
  have hx := x.toNat_lt
  rw [toNat_le32, toNat_byte32 x 0 (by decide), toNat_byte32 x 1 (by decide),
    toNat_byte32 x 2 (by decide), toNat_byte32 x 3 (by decide)]
  simp only [UInt32.reduceToNat, Nat.reduceMul, Nat.reducePow]
  omega

theorem byte32_le32 (a b c d : UInt8) : byte32 (le32 a b c d) 0 = a ∧ byte32 (le32 a b c d) 1 = b ∧
    byte32 (le32 a b c d) 2 = c ∧ byte32 (le32 a b c d) 3 = d := by
  have ha := a.toNat_lt
  have hb := b.toNat_lt
  have hc := c.toNat_lt
  have hd := d.toNat_lt
  refine ⟨?_, ?_, ?_, ?_⟩
  all_goals
    rw [← UInt8.toNat_inj, toNat_byte32 _ _ (by decide), toNat_le32]
    simp only [UInt32.reduceToNat, Nat.reduceMul, Nat.reducePow]
    omega

theorem le32_inj {a b c d a' b' c' d' : UInt8} (h : le32 a b c d = le32 a' b' c' d') :
    a = a' ∧ b = b' ∧ c = c' ∧ d = d' := by
  obtain ⟨ha, hb, hc, hd⟩ := byte32_le32 a b c d
  obtain ⟨ha', hb', hc', hd'⟩ := byte32_le32 a' b' c' d'
  rw [h] at ha hb hc hd
  exact ⟨ha.symm.trans ha', hb.symm.trans hb', hc.symm.trans hc', hd.symm.trans hd'⟩

theorem toUInt8_and_255 (x : UInt32) : (x &&& 0xFF).toUInt8 = x.toUInt8 := by
  rw [UInt32.toUInt8_and]
  exact UInt8.and_neg_one

theorem byte32_xor (x y k : UInt32) : byte32 (x ^^^ y) k = byte32 x k ^^^ byte32 y k := by
  unfold byte32
  rw [UInt32.shiftRight_xor, toUInt8_and_255, toUInt8_and_255, toUInt8_and_255, UInt32.toUInt8_xor]

/-- The XOR of words is taken byte by byte. -/
theorem le32_xor (a b c d a' b' c' d' : UInt8) : le32 a b c d ^^^ le32 a' b' c' d' =
    le32 (a ^^^ a') (b ^^^ b') (c ^^^ c') (d ^^^ d') := by
  obtain ⟨ha, hb, hc, hd⟩ := byte32_le32 a b c d
  obtain ⟨ha', hb', hc', hd'⟩ := byte32_le32 a' b' c' d'
  rw [← le32_byte32 (le32 a b c d ^^^ le32 a' b' c' d')]
  simp only [byte32_xor, ha, hb, hc, hd, ha', hb', hc', hd']

theorem toNat_lowByte (x : UInt16) : (x &&& 0xFF).toUInt8.toNat = x.toNat % 256 := by
  rw [UInt16.toNat_toUInt8, UInt16.toNat_and, show (0xFF : UInt16).toNat = 2 ^ 8 - 1 from rfl,
    Nat.and_two_pow_sub_one_eq_mod, Nat.mod_mod]

theorem toNat_highByte (x : UInt16) : ((x >>> 8) &&& 0xFF).toUInt8.toNat = x.toNat / 256 := by
  have hx := x.toNat_lt
  rw [toNat_lowByte, UInt16.toNat_shiftRight, show (8 : UInt16).toNat % 16 = 8 from rfl,
    Nat.shiftRight_eq_div_pow]
  omega

theorem le16_bytes (x : UInt16) : le16 (x &&& 0xFF).toUInt8 ((x >>> 8) &&& 0xFF).toUInt8 = x := by
  apply UInt16.toNat_inj.mp
  have hx := x.toNat_lt
  have hfit : (x.toNat / 256) <<< 8 < 2 ^ 16 := by
    rw [Nat.shiftLeft_eq]
    omega
  rw [le16, UInt16.toNat_or, UInt16.toNat_shiftLeft, UInt8.toNat_toUInt16, UInt8.toNat_toUInt16,
    show (8 : UInt16).toNat % 16 = 8 from rfl, toNat_lowByte, toNat_highByte,
    Nat.mod_eq_of_lt hfit, or_shiftLeft (by omega)]
  omega

theorem eq_of_bytes16 {x y : UInt16} (hlow : (x &&& 0xFF).toUInt8 = (y &&& 0xFF).toUInt8)
    (hhigh : ((x >>> 8) &&& 0xFF).toUInt8 = ((y >>> 8) &&& 0xFF).toUInt8) : x = y := by
  rw [← le16_bytes x, ← le16_bytes y, hlow, hhigh]

/-! ### Differences that do not wrap -/

theorem toNat_sub_of_le {x y : UInt32} (h : y.toNat ≤ x.toNat) :
    (x - y).toNat = x.toNat - y.toNat :=
  UInt32.toNat_sub_of_le _ _ (UInt32.le_iff_toNat_le.mpr h)

end BleHidUart.Lib.Word
