import BleHidUart.Board

/-!
# The EEPROM driver stores and reads what it is given

* `applyEffects_eepromWrite`: a buffer inside the EEPROM is stored as it is, whatever pages it
  crosses.
* `eepromRead_eq_slice`: the cells of a range are read as they are, across the block boundary too.
* `foldl_take_i2cEepromWrite`: a write cut short between two transactions has stored a first part of
  the buffer and has changed nothing else.
* `eeprom_round_trip`: both together; a read after any writes returns the latest bytes.
-/

namespace BleHidUart.Eeprom

open BleHidUart.Board BleHidUart.Lib.Memory BleHidUart.Lib.Word

/-! ### Addresses -/

theorem blockBase_eepromI2cAddr (a : UInt32) :
    blockBase (eepromI2cAddr a) = a.toNat / 0x10000 % 2 * 0x10000 := by
  have h1 : ((a >>> 16) &&& 0x01).toNat = a.toNat / 0x10000 % 2 := by
    rw [UInt32.toNat_and, UInt32.toNat_shiftRight, show (1 : UInt32).toNat = 2 ^ 1 - 1 from rfl,
      Nat.and_two_pow_sub_one_eq_mod, Nat.shiftRight_eq_div_pow]
    rfl
  have h2 : (a >>> 16) &&& 0x01 = 0 ∨ (a >>> 16) &&& 0x01 = 1 := by
    rcases Nat.mod_two_eq_zero_or_one (a.toNat / 0x10000) with h | h
    · exact Or.inl (UInt32.toNat_inj.mp (by rw [h1, h]; rfl))
    · exact Or.inr (UInt32.toNat_inj.mp (by rw [h1, h]; rfl))
  rw [blockBase, eepromI2cAddr, ← h1]
  rcases h2 with h | h <;> rw [h] <;> rfl

theorem device_address {a : UInt32} (h : a.toNat < 0x20000) :
    blockBase (eepromI2cAddr a) + (byte32 a 1).toNat * 256 + (byte32 a 0).toNat = a.toNat := by
  rw [blockBase_eepromI2cAddr, toNat_byte32 a 1 (by decide), toNat_byte32 a 0 (by decide)]
  simp only [UInt32.reduceToNat, Nat.reduceMul, Nat.reducePow]
  omega

theorem toNat_pageOff (a : UInt32) : (a &&& (eepromPageSize - 1)).toNat = a.toNat % 256 := by
  rw [UInt32.toNat_and, show (eepromPageSize - 1).toNat = 2 ^ 8 - 1 from rfl,
    Nat.and_two_pow_sub_one_eq_mod]

theorem toNat_space (a : UInt32) :
    (eepromPageSize - (a &&& (eepromPageSize - 1))).toNat = 256 - a.toNat % 256 := by
  have h := toNat_pageOff a
  rw [toNat_sub_of_le (by rw [h, show eepromPageSize.toNat = 256 from rfl]; omega), h]
  rfl

theorem toNat_add_ofNat {a : UInt32} {n : ℕ} (h : a.toNat + n ≤ 0x20000) :
    (a + UInt32.ofNat n).toNat = a.toNat + n := by
  have hn : (UInt32.ofNat n).toNat = n :=
    UInt32.toNat_ofNat_of_lt' (by simp only [UInt32.size]; omega)
  rw [UInt32.toNat_add, hn]
  omega

/-! ### One transaction -/

theorem pageStore_eq_store {base : ℕ} : ∀ {off : ℕ} {bs : List UInt8} (e : Eeprom),
    off + bs.length ≤ 256 → pageStore e base off bs = store e (base + off) bs
  | _, [], _, _ => by simp [pageStore]
  | off, b :: bs, e, h => by
    rw [List.length_cons] at h
    rw [pageStore, store_cons, Nat.mod_eq_of_lt (by omega), pageStore_eq_store _ (by omega),
      Nat.add_assoc]

/-- A transaction that stays in its page stores its data at the memory address. -/
theorem deviceWrite_eq_store {a : UInt32} {bs : List UInt8} (ha : a.toNat < 0x20000)
    (h : a.toNat % 256 + bs.length ≤ 256) (e : Eeprom) :
    deviceWrite e ⟨eepromI2cAddr a, byte32 a 1 :: byte32 a 0 :: bs⟩ = store e a.toNat bs := by
  have hlo : (byte32 a 0).toNat = a.toNat % 256 := by
    rw [toNat_byte32 a 0 (by decide)]
    simp
  have haddr := device_address ha
  simp only [deviceWrite]
  rw [pageStore_eq_store _ (by rw [hlo]; exact h), haddr]

/-! ### Writing a buffer -/

/-- The number of bytes of the first transaction of a write. -/
def firstChunk (a : UInt32) (n : ℕ) : ℕ :=
  if n < (eepromPageSize - (a &&& (eepromPageSize - 1))).toNat then n
  else (eepromPageSize - (a &&& (eepromPageSize - 1))).toNat

theorem firstChunk_eq (a : UInt32) (n : ℕ) : firstChunk a n = min n (256 - a.toNat % 256) := by
  unfold firstChunk; rw [toNat_space]; split_ifs <;> omega

theorem i2cEepromWriteLoop_succ {fuel : ℕ} {a : UInt32} {buf : List UInt8} (h : buf ≠ []) :
    i2cEepromWriteLoop (fuel + 1) a buf =
      ⟨eepromI2cAddr a, byte32 a 1 :: byte32 a 0 :: buf.take (firstChunk a buf.length)⟩ ::
        i2cEepromWriteLoop fuel (a + UInt32.ofNat (firstChunk a buf.length))
          (buf.drop (firstChunk a buf.length)) := by
  rw [i2cEepromWriteLoop, if_neg (by simpa using h)]
  rfl

/-- What the first `k` transactions of a write leave: a first part of the buffer is stored. -/
theorem foldl_take_loop {fuel : ℕ} {a : UInt32} {buf : List UInt8} (hf : buf.length ≤ fuel)
    (h : a.toNat + buf.length ≤ 0x20000) (e : Eeprom) (k : ℕ) :
    ∃ n ≤ buf.length, ((i2cEepromWriteLoop fuel a buf).take k).foldl deviceWrite e =
      store e a.toNat (buf.take n) ∧
        ((i2cEepromWriteLoop fuel a buf).length ≤ k → n = buf.length) := by
  induction fuel generalizing a buf e k with
  | zero =>
    have hnil : buf = [] := List.length_eq_zero_iff.mp (by omega)
    exact ⟨0, by omega, by simp [i2cEepromWriteLoop], fun _ => by simp [hnil]⟩
  | succ fuel ih =>
    by_cases hb : buf = []
    · exact ⟨0, by omega, by simp [hb, i2cEepromWriteLoop], fun _ => by simp [hb]⟩
    have hpos : 0 < buf.length := List.length_pos_iff.mpr hb
    rw [i2cEepromWriteLoop_succ hb]
    cases k with
    | zero => exact ⟨0, by omega, by simp, fun hk => by simp at hk⟩
    | succ k =>
      set c := firstChunk a buf.length with hc
      have hc' : c = min buf.length (256 - a.toNat % 256) := firstChunk_eq a _
      have hadd : (a + UInt32.ofNat c).toNat = a.toNat + c :=
        toNat_add_ofNat (by omega : a.toNat + c ≤ 0x20000)
      have hlen : (buf.drop c).length = buf.length - c := List.length_drop
      have hf' : (buf.drop c).length ≤ fuel := by omega
      have h' : (a + UInt32.ofNat c).toNat + (buf.drop c).length ≤ 0x20000 := by omega
      obtain ⟨n, hn, hst, hall⟩ := ih hf' h' (store e a.toNat (buf.take c)) k
      refine ⟨c + n, by omega, ?_, fun hk => ?_⟩
      · rw [List.take_succ_cons, List.foldl_cons, deviceWrite_eq_store (by omega)
          (by rw [List.length_take]; omega), hst, hadd, List.take_add, store_append,
          List.length_take_of_le (by omega)]
      · have := hall (by simpa using hk)
        omega

variable {a : UInt32} {buf : List UInt8}

theorem foldl_take_i2cEepromWrite (h : a.toNat + buf.length ≤ 0x20000) (e : Eeprom) (k : ℕ) :
    ∃ n ≤ buf.length,
      ((i2cEepromWrite a buf).take k).foldl deviceWrite e = store e a.toNat (buf.take n) := by
  obtain ⟨n, hn, hst, -⟩ := foldl_take_loop le_rfl h e k
  exact ⟨n, hn, hst⟩

/-- **A buffer inside the EEPROM is stored as it is.** -/
theorem applyEffects_eepromWrite (h : a.toNat + buf.length ≤ 0x20000) (e : Eeprom) :
    applyEffects e (eepromWrite a buf) = store e a.toNat buf := by
  obtain ⟨n, -, hst, hall⟩ :=
    foldl_take_loop le_rfl h e (i2cEepromWriteLoop buf.length a buf).length
  rw [List.take_length, hall le_rfl, List.take_length] at hst
  rw [applyEffects_eq_foldl, i2cWrites_eepromWrite]
  exact hst

theorem i2cEepromWrite_of_page (hb : buf ≠ []) (h : a.toNat % 256 + buf.length ≤ 256) :
    i2cEepromWrite a buf = [⟨eepromI2cAddr a, byte32 a 1 :: byte32 a 0 :: buf⟩] := by
  have hc : firstChunk a buf.length = buf.length := by rw [firstChunk_eq]; omega
  obtain ⟨n, hn⟩ : ∃ n, buf.length = n + 1 :=
    Nat.exists_eq_succ_of_ne_zero (by simpa using hb)
  rw [i2cEepromWrite, hn, i2cEepromWriteLoop_succ hb, hc, List.take_length, List.drop_length]
  cases n <;> simp [i2cEepromWriteLoop]

/-- No transaction of a write touches a cell outside of its range. -/
theorem deviceWrite_of_mem_loop {fuel : ℕ} {a : UInt32} {buf : List UInt8} {w : I2cWrite}
    (h : a.toNat + buf.length ≤ 0x20000) (hw : w ∈ i2cEepromWriteLoop fuel a buf) (e : Eeprom)
    {i : ℕ} (hi : a.toNat + buf.length ≤ i) : deviceWrite e w i = e i := by
  induction fuel generalizing a buf with
  | zero => cases hw
  | succ fuel ih =>
    by_cases hb : buf = []
    · rw [i2cEepromWriteLoop, if_pos (by simpa using hb)] at hw
      cases hw
    have hpos : 0 < buf.length := List.length_pos_iff.mpr hb
    have hc := firstChunk_eq a buf.length
    rw [i2cEepromWriteLoop_succ hb] at hw
    rcases List.mem_cons.mp hw with rfl | hw
    · have htake : (buf.take (firstChunk a buf.length)).length = firstChunk a buf.length :=
        List.length_take_of_le (by omega)
      rw [deviceWrite_eq_store (by omega) (by rw [htake]; omega)]
      exact store_of_ge (by rw [htake]; omega)
    · have hadd : (a + UInt32.ofNat (firstChunk a buf.length)).toNat =
          a.toNat + firstChunk a buf.length := toNat_add_ofNat (by omega)
      have hdrop : (buf.drop (firstChunk a buf.length)).length =
          buf.length - firstChunk a buf.length := List.length_drop
      exact ih (by omega) hw (by omega)

theorem deviceWrite_of_mem {w : I2cWrite} (h : a.toNat + buf.length ≤ 0x20000)
    (hw : w ∈ i2cEepromWrite a buf) (e : Eeprom) {i : ℕ} (hi : a.toNat + buf.length ≤ i) :
    deviceWrite e w i = e i := deviceWrite_of_mem_loop h hw e hi

/-! ### Reading a range -/

theorem deviceRead_eq_slice {a : UInt32} {n : ℕ} (ha : a.toNat < 0x20000)
    (h : a.toNat % 0x10000 + n ≤ 0x10000) (e : Eeprom) :
    deviceRead e (eepromI2cAddr a) (byte32 a 1) (byte32 a 0) n = slice e a.toNat n := by
  have haddr := device_address ha
  have hbase := blockBase_eepromI2cAddr a
  refine List.ext_getElem (by simp [deviceRead]) fun k h1 h2 => ?_
  have hk : k < n := by simpa using h2
  have hcell : blockBase (eepromI2cAddr a) +
      ((byte32 a 1).toNat * 256 + (byte32 a 0).toNat + k) % 0x10000 = a.toNat + k := by
    rw [Nat.mod_eq_of_lt (by omega)]
    omega
  rw [getElem_slice]
  simp only [deviceRead, List.getElem_map, List.getElem_range, hcell]

/-- The number of bytes up to the end of the block. -/
def blockSpace (a : UInt32) : UInt32 :=
  (if a &&& 0x10000 ≠ 0 then 0x20000 else 0x10000) - a

/-- The number of bytes of the first sequential read. -/
def firstRead (a : UInt32) (n : ℕ) : ℕ :=
  if n < (blockSpace a).toNat then n else (blockSpace a).toNat

theorem toNat_blockSpace {a : UInt32} (ha : a.toNat < 0x20000) :
    (blockSpace a).toNat = 0x10000 - a.toNat % 0x10000 := by
  have hand : (a &&& 0x10000).toNat = 2 ^ 16 * (a.toNat / 2 ^ 16 % 2) := by
    rw [UInt32.toNat_and, show (0x10000 : UInt32).toNat = 2 ^ 16 from rfl, Nat.and_two_pow,
      Nat.testBit_eq_decide_div_mod_eq]
    rcases Nat.mod_two_eq_zero_or_one (a.toNat / 2 ^ 16) with h | h <;> rw [h] <;> rfl
  by_cases hz : a &&& 0x10000 = 0
  · have h0 : a.toNat / 2 ^ 16 % 2 = 0 := by
      rw [hz, UInt32.toNat_zero] at hand; omega
    rw [blockSpace, if_neg (not_not.mpr hz),
      toNat_sub_of_le (by simp only [UInt32.reduceToNat]; omega)]
    simp only [UInt32.reduceToNat]
    omega
  · have h1 : a.toNat / 2 ^ 16 % 2 = 1 := by
      rcases Nat.mod_two_eq_zero_or_one (a.toNat / 2 ^ 16) with h | h
      · exact absurd (UInt32.toNat_inj.mp (by rw [hand, h]; rfl)) hz
      · exact h
    rw [blockSpace, if_pos hz, toNat_sub_of_le (by simp only [UInt32.reduceToNat]; omega)]
    simp only [UInt32.reduceToNat]
    omega

theorem i2cEepromReadLoop_succ {fuel n : ℕ} {a : UInt32} (e : Eeprom) (h : n ≠ 0) :
    i2cEepromReadLoop e (fuel + 1) a n =
      deviceRead e (eepromI2cAddr a) (byte32 a 1) (byte32 a 0) (firstRead a n) ++
        i2cEepromReadLoop e fuel (a + UInt32.ofNat (firstRead a n)) (n - firstRead a n) := by
  rw [i2cEepromReadLoop, if_neg h]
  rfl

theorem i2cEepromReadLoop_eq_slice {fuel n : ℕ} {a : UInt32} (hf : n ≤ fuel)
    (h : a.toNat + n ≤ 0x20000) (e : Eeprom) :
    i2cEepromReadLoop e fuel a n = slice e a.toNat n := by
  induction fuel generalizing a n with
  | zero =>
    obtain rfl : n = 0 := by omega
    rfl
  | succ fuel ih =>
    by_cases h0 : n = 0
    · simp [h0, i2cEepromReadLoop]
    · have hc : firstRead a n = min n (0x10000 - a.toNat % 0x10000) := by
        unfold firstRead; rw [toNat_blockSpace (by omega)]; split_ifs <;> omega
      have hadd : (a + UInt32.ofNat (firstRead a n)).toNat = a.toNat + firstRead a n :=
        toNat_add_ofNat (by omega : a.toNat + firstRead a n ≤ 0x20000)
      have hrest := ih (by omega : n - firstRead a n ≤ fuel)
        (by omega : (a + UInt32.ofNat (firstRead a n)).toNat + (n - firstRead a n) ≤ 0x20000)
      rw [i2cEepromReadLoop_succ e h0, hrest, deviceRead_eq_slice (by omega) (by omega), hadd,
        ← slice_add, Nat.add_sub_cancel' (by omega)]

/-- **A range inside the EEPROM is read as it is.** -/
theorem eepromRead_eq_slice {n : ℕ} (h : a.toNat + n ≤ 0x20000) (e : Eeprom) :
    eepromRead e a n = slice e a.toNat n := i2cEepromReadLoop_eq_slice le_rfl h e

theorem blockSpace_ne_zero (a : UInt32) : blockSpace a ≠ 0 := by
  unfold blockSpace
  intro h
  rw [UInt32.sub_eq_iff_eq_add, UInt32.zero_add] at h
  by_cases hz : a &&& 0x10000 = 0
  · rw [if_neg (not_not.mpr hz)] at h
    rw [← h] at hz
    exact absurd hz (by decide)
  · rw [if_pos hz] at h
    rw [← h] at hz
    exact hz (by decide)

theorem length_i2cEepromReadLoop (e : Eeprom) : ∀ (fuel : ℕ) (a : UInt32) (n : ℕ), n ≤ fuel →
    (i2cEepromReadLoop e fuel a n).length = n
  | 0, _, _, hn => by
    rw [Nat.le_zero.mp hn]
    rfl
  | fuel + 1, a, n, hn => by
    by_cases h0 : n = 0
    · simp [h0, i2cEepromReadLoop]
    · have hspace : 0 < (blockSpace a).toNat :=
        Nat.pos_of_ne_zero fun h => blockSpace_ne_zero a (UInt32.toNat_inj.mp h)
      have hfirst : 0 < firstRead a n ∧ firstRead a n ≤ n := by
        unfold firstRead
        split_ifs <;> omega
      rw [i2cEepromReadLoop_succ e h0, List.length_append,
        length_i2cEepromReadLoop e fuel _ _ (by omega)]
      simp only [deviceRead, List.length_map, List.length_range]
      omega

@[simp] theorem length_eepromRead (e : Eeprom) (a : UInt32) (n : ℕ) :
    (eepromRead e a n).length = n := length_i2cEepromReadLoop e n a n le_rfl

/-! ### The round trip -/

/-- A write: the address and the buffer. -/
abbrev BufferWrite := UInt32 × List UInt8

/-- The write lies in the EEPROM. -/
def InEeprom (w : BufferWrite) : Prop := w.1.toNat + w.2.length ≤ eepromSize.toNat

/-- The write has a byte for the cell. -/
def Covers (w : BufferWrite) (i : ℕ) : Prop := w.1.toNat ≤ i ∧ i < w.1.toNat + w.2.length

/-- The transaction stays in one page and in one block. -/
def StaysInPage (w : I2cWrite) : Prop :=
  ∃ hi lo data, w.tx = hi :: lo :: data ∧ lo.toNat + data.length ≤ 256 ∧
    hi.toNat * 256 + lo.toNat + data.length ≤ 0x10000

/-- `EepromWrite`, one buffer after another. -/
def writeAll (e : Eeprom) (ws : List BufferWrite) : Eeprom :=
  ws.foldl (fun e w => applyEffects e (eepromWrite w.1 w.2)) e

/-- The byte is what the latest of the writes left in the cell. -/
def Latest (e : Eeprom) (ws : List BufferWrite) (i : ℕ) (b : UInt8) : Prop :=
  (∃ xs w ys, ws = xs ++ w :: ys ∧ Covers w i ∧ (∀ v ∈ ys, ¬ Covers v i) ∧
      b = byteAt w.2 (i - w.1.toNat)) ∨
    (∀ w ∈ ws, ¬ Covers w i) ∧ b = e i

/-- **A write changes its cells and no others.** -/
theorem cell_eepromWrite {w : BufferWrite} (h : InEeprom w) (e : Eeprom) (i : ℕ) :
    (Covers w i → applyEffects e (eepromWrite w.1 w.2) i = byteAt w.2 (i - w.1.toNat)) ∧
      (¬ Covers w i → applyEffects e (eepromWrite w.1 w.2) i = e i) := by
  rw [applyEffects_eepromWrite h e]
  constructor
  · rintro ⟨hlo, hhi⟩
    obtain ⟨k, rfl⟩ := Nat.exists_eq_add_of_le hlo
    have hk : k < w.2.length := by omega
    rw [store_add hk, Nat.add_sub_cancel_left, byteAt, List.getD_eq_getElem _ _ hk]
  · intro hno
    rcases Nat.lt_or_ge i w.1.toNat with hlt | hge
    · exact store_of_lt _ hlt
    · exact store_of_ge (Nat.le_of_not_lt fun hlt => hno ⟨hge, hlt⟩)

theorem staysInPage_loop {fuel : ℕ} {a : UInt32} {buf : List UInt8} {w : I2cWrite}
    (hw : w ∈ i2cEepromWriteLoop fuel a buf) : StaysInPage w := by
  induction fuel generalizing a buf with
  | zero => cases hw
  | succ fuel ih =>
    by_cases hb : buf = []
    · rw [i2cEepromWriteLoop, if_pos (by simpa using hb)] at hw
      cases hw
    rw [i2cEepromWriteLoop_succ hb] at hw
    rcases List.mem_cons.mp hw with rfl | hw
    · have hc := firstChunk_eq a buf.length
      have hlo : (byte32 a 0).toNat = a.toNat % 256 := by
        rw [toNat_byte32 a 0 (by decide)]
        simp
      have hhi := (byte32 a 1).toNat_lt
      have hlen : (buf.take (firstChunk a buf.length)).length = firstChunk a buf.length :=
        List.length_take_of_le (by omega)
      refine ⟨byte32 a 1, byte32 a 0, buf.take (firstChunk a buf.length), rfl, ?_, ?_⟩ <;> omega
    · exact ih hw

theorem latest_writeAll {ws : List BufferWrite} (h : ∀ w ∈ ws, InEeprom w) (e : Eeprom) (i : ℕ) :
    Latest e ws i (writeAll e ws i) := by
  induction ws generalizing e with
  | nil => exact .inr ⟨fun w hw => absurd hw List.not_mem_nil, rfl⟩
  | cons w ws ih =>
    obtain ⟨hw, hws⟩ := List.forall_mem_cons.mp h
    have hcell := cell_eepromWrite hw e i
    have hrest : Latest (applyEffects e (eepromWrite w.1 w.2)) ws i (writeAll e (w :: ws) i) :=
      ih hws _
    rcases hrest with ⟨xs, v, ys, rfl, hv⟩ | ⟨hno, hval⟩
    · exact .inl ⟨w :: xs, v, ys, rfl, hv⟩
    · by_cases hcov : Covers w i
      · exact .inl ⟨[], w, ws, rfl, hcov, hno, hval.trans (hcell.1 hcov)⟩
      · exact .inr ⟨List.forall_mem_cons.mpr ⟨hcov, hno⟩, hval.trans (hcell.2 hcov)⟩

/-- **Round trip and frame.** A write that fits in the EEPROM changes its cells to its bytes and no
other cell, in transactions that stay in a page; a read of any range returns the cells; and so a
read after any writes returns in each cell the latest byte. -/
theorem eeprom_round_trip (e : Eeprom) {w : BufferWrite} (hw : InEeprom w) {ws : List BufferWrite}
    (hws : ∀ v ∈ ws, InEeprom v) {b : UInt32} {n : ℕ} (hb : b.toNat + n ≤ eepromSize.toNat) :
    (∀ i, (Covers w i → applyEffects e (eepromWrite w.1 w.2) i = byteAt w.2 (i - w.1.toNat)) ∧
        (¬ Covers w i → applyEffects e (eepromWrite w.1 w.2) i = e i)) ∧
      (∀ t ∈ i2cWrites (eepromWrite w.1 w.2), StaysInPage t) ∧
      eepromRead e b n = slice e b.toNat n ∧
      ∀ k < n, Latest e ws (b.toNat + k) (byteAt (eepromRead (writeAll e ws) b n) k) := by
  refine ⟨cell_eepromWrite hw e, ?_, eepromRead_eq_slice hb e, ?_⟩
  · intro t ht
    rw [i2cWrites_eepromWrite] at ht
    exact staysInPage_loop ht
  · intro k hk
    have hcell : byteAt (eepromRead (writeAll e ws) b n) k = writeAll e ws (b.toNat + k) := by
      rw [eepromRead_eq_slice hb, byteAt, List.getD_eq_getElem _ _ (by rw [length_slice]; exact hk),
        getElem_slice]
    rw [hcell]
    exact latest_writeAll hws e _

/-- Two writes over the block boundary, the second one over a part of the first. -/
theorem eeprom_round_trip_blocks :
    Latest (fun _ => 0) [(0xFFFE, [1, 2, 3, 4]), (0x10000, [5])] 0x10000
      (byteAt (eepromRead (writeAll (fun _ => 0) [(0xFFFE, [1, 2, 3, 4]), (0x10000, [5])])
        0xFFFD 5) 3) := by
  have hin : ∀ v ∈ ([(0xFFFE, [1, 2, 3, 4]), (0x10000, [5])] : List BufferWrite), InEeprom v := by
    unfold InEeprom
    decide
  exact (eeprom_round_trip (fun _ => 0) (hin _ List.mem_cons_self) hin (b := 0xFFFD) (n := 5)
    (by decide)).2.2.2 3 (by decide)

end BleHidUart.Eeprom
