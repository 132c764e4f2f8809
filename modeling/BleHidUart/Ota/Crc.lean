import BleHidUart.Ota.Handlers

/-!
# The incremental CRC of the file is the reference CRC

`otaFileCrcUpdate` absorbs the file packet by packet and keeps the bytes of an unfinished word;
`otaFileCrcFinalize` pads that word with `0xFF`. However the file is cut into packets, the result is
`otaFileCrcCalculate` of the whole file (`finalize_packets`).
-/

namespace BleHidUart.Ota.Crc

open BleHidUart.Ota.Handlers BleHidUart.Lib.Word

/-- The state of the incremental CRC after a byte string. -/
def crcOf (s : List UInt8) : FileCrc := otaFileCrcUpdate otaFileCrcReset s

@[simp] theorem otaFileCrcUpdate_nil (f : FileCrc) : otaFileCrcUpdate f [] = f := rfl

theorem otaFileCrcUpdate_append (f : FileCrc) (xs ys : List UInt8) :
    otaFileCrcUpdate f (xs ++ ys) = otaFileCrcUpdate (otaFileCrcUpdate f xs) ys :=
  List.foldl_append

/-- **Cutting the file does not matter.** -/
theorem crcOf_append (xs ys : List UInt8) : crcOf (xs ++ ys) = otaFileCrcUpdate (crcOf xs) ys :=
  otaFileCrcUpdate_append _ xs ys

/-! ### Four bytes at a time -/

theorem update_one (r : UInt32) (a : UInt8) :
    otaFileCrcUpdate ⟨r, 0, 0⟩ [a] = ⟨r, a.toUInt32, 8⟩ := by
  simp [otaFileCrcUpdate, otaFileCrcByte]

theorem update_two (r : UInt32) (a b : UInt8) :
    otaFileCrcUpdate ⟨r, 0, 0⟩ [a, b] = ⟨r, a.toUInt32 ||| (b.toUInt32 <<< 8), 16⟩ := by
  simp [otaFileCrcUpdate, otaFileCrcByte]

theorem update_three (r : UInt32) (a b c : UInt8) :
    otaFileCrcUpdate ⟨r, 0, 0⟩ [a, b, c] =
      ⟨r, a.toUInt32 ||| (b.toUInt32 <<< 8) ||| (c.toUInt32 <<< 16), 24⟩ := by
  simp [otaFileCrcUpdate, otaFileCrcByte]

theorem update_four (r : UInt32) (a b c d : UInt8) :
    otaFileCrcUpdate ⟨r, 0, 0⟩ [a, b, c, d] = ⟨r ^^^ le32 a b c d, 0, 0⟩ := by
  simp [otaFileCrcUpdate, otaFileCrcByte, le32]

theorem finalize_update : ∀ (s : List UInt8) (r : UInt32),
    (otaFileCrcFinalize (otaFileCrcUpdate ⟨r, 0, 0⟩ s)).2 = otaFileCrcLoop r s
  | [], r => rfl
  | [a], r => by
    rw [update_one]
    simp [otaFileCrcFinalize, otaFileCrcPad, otaFileCrcLoop, le32]
  | [a, b], r => by
    rw [update_two]
    simp [otaFileCrcFinalize, otaFileCrcPad, otaFileCrcLoop, le32]
  | [a, b, c], r => by
    rw [update_three]
    simp [otaFileCrcFinalize, otaFileCrcPad, otaFileCrcLoop, le32]
  | a :: b :: c :: d :: s, r => by
    have hcut : a :: b :: c :: d :: s = [a, b, c, d] ++ s := rfl
    rw [hcut, otaFileCrcUpdate_append, update_four, finalize_update s]
    rfl

/-- **The incremental CRC is the reference CRC.** -/
theorem finalize_crcOf (s : List UInt8) :
    (otaFileCrcFinalize (crcOf s)).2 = otaFileCrcCalculate s := finalize_update s 0

/-! ### The fields of the incremental CRC -/

/-- The XOR of the full words of a byte string. -/
def xorWords : List UInt8 → UInt32
  | a :: b :: c :: d :: s => le32 a b c d ^^^ xorWords s
  | _ => 0

/-- The bytes after the last full word. -/
def pendingBytes (s : List UInt8) : List UInt8 := s.drop (4 * (s.length / 4))

/-- Less than four bytes as a word, low byte first. -/
def pendingWord (s : List UInt8) : UInt32 :=
  le32 (byteAt s 0) (byteAt s 1) (byteAt s 2) (byteAt s 3)

theorem pendingBytes_four (a b c d : UInt8) (s : List UInt8) :
    pendingBytes (a :: b :: c :: d :: s) = pendingBytes s := by
  have hlen : (a :: b :: c :: d :: s).length = s.length + 4 := rfl
  have hdiv : 4 * ((s.length + 4) / 4) = 4 * (s.length / 4) + 4 := by omega
  rw [pendingBytes, hlen, hdiv]
  rfl

theorem update_eq : ∀ (s : List UInt8) (r : UInt32), otaFileCrcUpdate ⟨r, 0, 0⟩ s =
    ⟨r ^^^ xorWords s, pendingWord (pendingBytes s), UInt8.ofNat (8 * (s.length % 4))⟩
  | [], r => by simp [xorWords, pendingBytes, pendingWord, le32, byteAt]
  | [a], r => by
    rw [update_one]
    simp [xorWords, pendingBytes, pendingWord, le32, byteAt]
  | [a, b], r => by
    rw [update_two]
    simp [xorWords, pendingBytes, pendingWord, le32, byteAt]
  | [a, b, c], r => by
    rw [update_three]
    simp [xorWords, pendingBytes, pendingWord, le32, byteAt]
  | a :: b :: c :: d :: s, r => by
    have hcut : a :: b :: c :: d :: s = [a, b, c, d] ++ s := rfl
    have hlen : (a :: b :: c :: d :: s).length % 4 = s.length % 4 := by
      simp only [List.length_cons]
      omega
    have hwords : xorWords (a :: b :: c :: d :: s) = le32 a b c d ^^^ xorWords s := rfl
    rw [hlen, pendingBytes_four, hwords, hcut, otaFileCrcUpdate_append, update_four, update_eq s,
      UInt32.xor_assoc]

/-- **The state of the incremental CRC**: the XOR of the full words, the bytes after them, and the
number of bits these have. -/
theorem crcOf_eq (s : List UInt8) : crcOf s =
    ⟨xorWords s, pendingWord (pendingBytes s), UInt8.ofNat (8 * (s.length % 4))⟩ := by
  have h := update_eq s 0
  rwa [UInt32.zero_xor] at h

/-! ### Packets -/

theorem foldl_update (f : FileCrc) (packets : List (List UInt8)) :
    packets.foldl otaFileCrcUpdate f = otaFileCrcUpdate f packets.flatten := by
  induction packets generalizing f with
  | nil => rfl
  | cons p packets ih => rw [List.foldl_cons, ih, List.flatten_cons, otaFileCrcUpdate_append]

theorem crcOf_shift_mem (s : List UInt8) :
    (crcOf s).crcPartialShift ∈ ([0, 8, 16, 24] : List UInt8) := by
  have hall : ∀ k < 4, UInt8.ofNat (8 * k) ∈ ([0, 8, 16, 24] : List UInt8) := by decide
  rw [crcOf_eq]
  exact hall (s.length % 4) (Nat.mod_lt _ (by decide))

/-- **However the file is cut into packets**, empty ones included, the CRC is the reference CRC of
the whole file, and between two packets the shift counter is one of `0`, `8`, `16` and `24`. -/
theorem finalize_packets (packets : List (List UInt8)) :
    (otaFileCrcFinalize (packets.foldl otaFileCrcUpdate otaFileCrcReset)).2 =
        otaFileCrcCalculate packets.flatten ∧
      ∀ ps, ps <+: packets → (ps.foldl otaFileCrcUpdate otaFileCrcReset).crcPartialShift ∈
        ([0, 8, 16, 24] : List UInt8) := by
  constructor
  · rw [foldl_update]
    exact finalize_crcOf packets.flatten
  · intro ps _
    rw [foldl_update]
    exact crcOf_shift_mem ps.flatten

/-- Five bytes in three packets: a full word, and a word of one byte. -/
example : (otaFileCrcFinalize ([[0x01, 0x02], [], [0x03, 0x04, 0x05]].foldl otaFileCrcUpdate
    otaFileCrcReset)).2 = 0x04030201 ^^^ 0xFFFFFF05 := by decide

end BleHidUart.Ota.Crc
