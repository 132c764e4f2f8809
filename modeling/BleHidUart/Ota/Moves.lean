import BleHidUart.Ota.Crc

/-!
# What an OTA frame of the app can do

`Accepts c f` says that a data packet passes every check of `OtaHandleDataPacket`, `stored c f` is
the part of its content that is stored, `afterStore c f` the context with it. `OtaMove` lists what a
frame can do to the context and to the outside; `otaHandle_move` says that this is all it can do.
The invariants of the download are proved from the moves, not from the handlers.
-/

namespace BleHidUart.Ota.Moves

open BleHidUart.Board BleHidUart.CtrlOta.Metadata BleHidUart.Lib.Word BleHidUart.Ota.Handlers

/-! ### Accepted packets -/

/-- The sequence number of a packet. -/
def seqOf (f : DataFrame) : UInt16 := le16 (byteAt f.bytes 4) (byteAt f.bytes 5)

/-- The content of a packet: all but the seven bytes of its head and its CRC. -/
def content (f : DataFrame) : List UInt8 := (f.bytes.drop 7).take (f.bytes.length - 8)

/-- `0` in the last packet. -/
def hasMore (f : DataFrame) : UInt8 := byteAt f.bytes 6

/-- The XOR of the content is the last byte of the packet. -/
def PacketCrcOk (f : DataFrame) : Prop :=
  otaPacketCrcCalculate (content f) = byteAt f.bytes (f.bytes.length - 1)

instance (f : DataFrame) : Decidable (PacketCrcOk f) :=
  inferInstanceAs (Decidable (otaPacketCrcCalculate (content f) = _))

/-- The packet passes every check. -/
structure Accepts (c : OtaContext) (f : DataFrame) : Prop where
  state : c.state = .receiving
  seq : seqOf f = c.expectedSeq
  crc : PacketCrcOk f

instance (c : OtaContext) (f : DataFrame) : Decidable (Accepts c f) :=
  decidable_of_iff (c.state = .receiving ∧ seqOf f = c.expectedSeq ∧ PacketCrcOk f)
    ⟨fun h => ⟨h.1, h.2.1, h.2.2⟩, fun h => ⟨h.state, h.seq, h.crc⟩⟩

/-- The part of the content that is stored: what the file still lacks. -/
def stored (c : OtaContext) (f : DataFrame) : List UInt8 :=
  (content f).take (c.fileLength - c.receivedLength).toNat

/-- The context with the packet stored. -/
def afterStore (c : OtaContext) (f : DataFrame) : OtaContext :=
  { c with
    crc := otaFileCrcUpdate c.crc (stored c f)
    eepromAddr := c.eepromAddr + UInt32.ofNat (stored c f).length
    receivedLength := c.receivedLength + UInt32.ofNat (stored c f).length
    expectedSeq := c.expectedSeq + 1
    resendCount := 0 }

/-- The CRC the last packet is decided on. -/
def finalCrc (c : OtaContext) (f : DataFrame) : UInt32 :=
  (otaFileCrcFinalize (afterStore c f).crc).2

/-- The packet completes the download: it sets the ready flag. -/
structure Commits (c : OtaContext) (f : DataFrame) : Prop where
  accepts : Accepts c f
  last : hasMore f = 0
  crc : finalCrc c f = c.fileCrc

instance (c : OtaContext) (f : DataFrame) : Decidable (Commits c f) :=
  decidable_of_iff (Accepts c f ∧ hasMore f = 0 ∧ finalCrc c f = c.fileCrc)
    ⟨fun h => ⟨h.1, h.2.1, h.2.2⟩, fun h => ⟨h.accepts, h.last, h.crc⟩⟩

theorem length_content (f : DataFrame) : (content f).length = f.bytes.length - 8 := by
  have h := f.size
  simp only [content, List.length_take, List.length_drop]
  omega

theorem length_stored (c : OtaContext) (f : DataFrame) :
    (stored c f).length = min (c.fileLength - c.receivedLength).toNat (f.bytes.length - 8) := by
  simp [stored, length_content]

theorem length_stored_le (c : OtaContext) (f : DataFrame) : (stored c f).length ≤ 200 := by
  have h := f.size
  rw [length_stored]
  omega

/-! ### The storing part of the handler -/

theorem toNat_contentLen (f : DataFrame) :
    (UInt16.ofNat f.bytes.length - 8).toNat = f.bytes.length - 8 := by
  have h := f.size
  have hn : (UInt16.ofNat f.bytes.length).toNat = f.bytes.length :=
    UInt16.toNat_ofNat_of_lt' (by simp only [UInt16.size]; omega)
  rw [UInt16.toNat_sub_of_le _ _ (UInt16.le_iff_toNat_le.mpr (by rw [hn]; exact h.1)), hn]
  rfl

theorem toNat_otaValidLen (c : OtaContext) (f : DataFrame) :
    (otaValidLen c (UInt16.ofNat f.bytes.length - 8)).toNat = (stored c f).length := by
  have hf := f.size
  have hlen := toNat_contentLen f
  rw [length_stored]
  unfold otaValidLen
  by_cases h : (UInt16.ofNat f.bytes.length - 8).toUInt32 ≤ c.fileLength - c.receivedLength
  · simp only [if_pos h]
    rw [UInt32.le_iff_toNat_le, UInt16.toNat_toUInt32, hlen] at h
    rw [hlen]
    omega
  · simp only [if_neg h]
    rw [UInt32.le_iff_toNat_le, UInt16.toNat_toUInt32, hlen] at h
    rw [UInt32.toNat_toUInt16]
    omega

theorem take_content (c : OtaContext) (f : DataFrame) :
    (content f).take (stored c f).length = stored c f := by
  rw [stored, List.length_take]
  rcases le_total (c.fileLength - c.receivedLength).toNat (content f).length with h | h
  · rw [min_eq_left h]
  · rw [min_eq_right h, List.take_length, List.take_of_length_le h]

theorem otaStorePacket_eq (c : OtaContext) (f : DataFrame) :
    otaStorePacket c (content f) (UInt16.ofNat f.bytes.length - 8) =
      (afterStore c f, eepromWrite c.eepromAddr (stored c f)) := by
  have hvalid := toNat_otaValidLen c f
  have hle := length_stored_le c f
  unfold otaStorePacket
  generalize otaValidLen c (UInt16.ofNat f.bytes.length - 8) = v at hvalid
  by_cases hpos : 0 < v
  · have hv32 : v.toUInt32 = UInt32.ofNat (stored c f).length := by
      apply UInt32.toNat_inj.mp
      rw [UInt16.toNat_toUInt32, hvalid,
        UInt32.toNat_ofNat_of_lt' (by simp only [UInt32.size]; omega)]
    simp only [if_pos hpos, hvalid, hv32, take_content]
    rfl
  · have hv0 : v = 0 := by
      have h0 : ¬ 0 < v.toNat := fun h => hpos (UInt16.lt_iff_toNat_lt.mpr h)
      exact UInt16.toNat_inj.mp (by rw [Nat.eq_zero_of_not_pos h0]; rfl)
    have hnil : stored c f = [] := List.length_eq_zero_iff.mp (by rw [← hvalid, hv0]; rfl)
    simp only [if_neg hpos, afterStore, hnil]
    simp [otaNextPacket, eepromWrite, i2cEepromWrite, i2cEepromWriteLoop]

/-! ### The handler of a data packet -/

theorem otaHandle_data (c : OtaContext) (f : DataFrame) :
    otaHandle c (.data f) =
      if c.state ≠ .receiving then (c, [])
      else if seqOf f ≠ c.expectedSeq then otaRejectPacket c (seqOf f)
      else if ¬ PacketCrcOk f then otaRejectPacket c c.expectedSeq
      else if hasMore f = 0 then
        ((otaLastPacket (afterStore c f) (seqOf f)).1, eepromWrite c.eepromAddr (stored c f) ++
          (otaLastPacket (afterStore c f) (seqOf f)).2)
      else (afterStore c f, eepromWrite c.eepromAddr (stored c f) ++
        [otaSendDataAck (seqOf f) otaAckContinue]) := by
  have hf := f.size
  have hn : (UInt16.ofNat f.bytes.length).toNat = f.bytes.length :=
    UInt16.toNat_ofNat_of_lt' (by simp only [UInt16.size]; omega)
  have hrange : ¬ (UInt16.ofNat f.bytes.length < otaFrameDataMinSize ∨
      otaFrameDataMaxSize < UInt16.ofNat f.bytes.length) := by
    rw [UInt16.lt_iff_toNat_lt, UInt16.lt_iff_toNat_lt, hn]
    simp only [otaFrameDataMinSize, otaFrameDataMaxSize, UInt16.reduceToNat]
    omega
  have hlast : (UInt16.ofNat f.bytes.length - 1).toNat = f.bytes.length - 1 := by
    have hle : (1 : UInt16) ≤ UInt16.ofNat f.bytes.length := by
      rw [UInt16.le_iff_toNat_le, hn]
      simp only [UInt16.reduceToNat]
      omega
    rw [UInt16.toNat_sub_of_le _ _ hle, hn]
    rfl
  have hcontent : (f.bytes.drop 7).take (UInt16.ofNat f.bytes.length - 8).toNat = content f := by
    rw [toNat_contentLen]; rfl
  have hstore := otaStorePacket_eq c f
  simp only [otaHandle, otaHandleDataPacket, if_neg hrange, hlast, hcontent, hstore]
  rfl

/-- The context after an accepted start request. -/
def opened (c : OtaContext) (len crc : UInt32) : OtaContext :=
  otaRestart { c with fileLength := len, fileCrc := crc }

/-- The length and the CRC a start request announces. -/
def startLen (f : StartFrame) : UInt32 := le32At f.bytes 4

def startCrc (f : StartFrame) : UInt32 := le32At f.bytes 8

/-- The start request opens a session. -/
structure Opens (c : OtaContext) (f : StartFrame) : Prop where
  state : c.state = .idle
  pos : startLen f ≠ 0
  le : startLen f ≤ ctrlOtaFlagAddr

instance (c : OtaContext) (f : StartFrame) : Decidable (Opens c f) :=
  decidable_of_iff (c.state = .idle ∧ startLen f ≠ 0 ∧ startLen f ≤ ctrlOtaFlagAddr)
    ⟨fun h => ⟨h.1, h.2.1, h.2.2⟩, fun h => ⟨h.state, h.pos, h.le⟩⟩

/-- **What a frame can do**: the next context and the effects. -/
inductive OtaMove (c : OtaContext) : AppFrame → OtaContext → List Effect → Prop
  | startIgnored (f : StartFrame) : c.state ≠ .idle → OtaMove c (.start f) c []
  | startRefused (f : StartFrame) : c.state = .idle → ¬ Opens c f →
      OtaMove c (.start f) otaReset (writeFlag 0 ++ [otaSendStartResponse otaResultFail])
  | startAccepted (f : StartFrame) : Opens c f →
      OtaMove c (.start f) (opened c (startLen f) (startCrc f))
        (writeFlag 0 ++ [otaSendStartResponse otaResultSuccess,
          otaSendFlashEraseDone otaResultSuccess])
  | dataIgnored (f : DataFrame) : c.state ≠ .receiving → OtaMove c (.data f) c []
  | dataResend (f : DataFrame) (seq : UInt16) : c.state = .receiving → ¬ Accepts c f →
      c.resendCount + 1 < otaMaxResendCount →
      OtaMove c (.data f) { c with resendCount := c.resendCount + 1 }
        [otaSendDataAck seq otaAckResend]
  | dataAborted (f : DataFrame) (seq : UInt16) : c.state = .receiving → ¬ Accepts c f →
      otaMaxResendCount ≤ c.resendCount + 1 →
      OtaMove c (.data f) otaReset [otaSendDataAck seq otaAckFail]
  | dataContinued (f : DataFrame) : Accepts c f → hasMore f ≠ 0 →
      OtaMove c (.data f) (afterStore c f)
        (eepromWrite c.eepromAddr (stored c f) ++ [otaSendDataAck (seqOf f) otaAckContinue])
  | dataCommitted (f : DataFrame) : Commits c f →
      OtaMove c (.data f) otaReset
        (eepromWrite c.eepromAddr (stored c f) ++ otaSendDataAck (seqOf f) otaAckContinue ::
          ctrlOtaSetotaReadyflag c.fileLength c.fileCrc)
  | dataMismatched (f : DataFrame) : Accepts c f → hasMore f = 0 → finalCrc c f ≠ c.fileCrc →
      OtaMove c (.data f) otaReset
        (eepromWrite c.eepromAddr (stored c f) ++ [otaSendDataAck (seqOf f) otaAckFail])
  | packageRetried (f : PackageRetryFrame) : byteAt f.bytes 4 = 0x0E →
      OtaMove c (.packageRetry f) (otaRestart c) [otaSendPackageRetryAck otaResultSuccess]
  | packageRetryRefused (f : PackageRetryFrame) : byteAt f.bytes 4 ≠ 0x0E →
      OtaMove c (.packageRetry f) c [otaSendPackageRetryAck otaResultFail]
  | eraseRetried (f : EraseRetryFrame) :
      OtaMove c (.eraseRetry f) { c with state := .idle } [otaSendEraseRetryAck otaResultSuccess]
  | eraseRetryRefused (f : EraseRetryFrame) :
      OtaMove c (.eraseRetry f) c [otaSendEraseRetryAck otaResultFail]

theorem otaRejectPacket_move {c : OtaContext} {f : DataFrame} (seq : UInt16)
    (hs : c.state = .receiving) (ha : ¬ Accepts c f) :
    OtaMove c (.data f) (otaRejectPacket c seq).1 (otaRejectPacket c seq).2 := by
  unfold otaRejectPacket
  by_cases h : otaMaxResendCount ≤ c.resendCount + 1
  · simp only [if_pos h]
    exact .dataAborted f seq hs ha h
  · simp only [if_neg h]
    exact .dataResend f seq hs ha (UInt8.not_le.mp h)

theorem otaHandleStartRequest_move (c : OtaContext) (f : StartFrame) :
    OtaMove c (.start f) (otaHandleStartRequest c f.bytes).1
    (otaHandleStartRequest c f.bytes).2 := by
  unfold otaHandleStartRequest
  by_cases hs : c.state = .idle
  · rw [if_neg (not_not.mpr hs)]
    by_cases h0 : startLen f = 0
    · have h0' : le32At f.bytes 4 = 0 := h0
      simp only [if_pos h0']
      exact .startRefused f hs fun h => h.pos h0
    · have h0' : ¬ le32At f.bytes 4 = 0 := h0
      by_cases hle : ctrlOtaFlagAddr < le32At f.bytes 4
      · simp only [if_neg h0', if_pos hle]
        exact .startRefused f hs fun h => absurd h.le (UInt32.not_le.mpr hle)
      · simp only [if_neg h0', if_neg hle, eepromErase_eq, List.append_nil, List.append_assoc]
        exact .startAccepted f ⟨hs, h0, UInt32.not_lt.mp hle⟩
  · rw [if_pos hs]
    exact .startIgnored f hs

theorem otaHandle_data_move (c : OtaContext) (f : DataFrame) :
    OtaMove c (.data f) (otaHandle c (.data f)).1 (otaHandle c (.data f)).2 := by
  rw [otaHandle_data]
  by_cases hs : c.state = .receiving
  swap
  · rw [if_pos hs]
    exact .dataIgnored f hs
  rw [if_neg (not_not.mpr hs)]
  by_cases hseq : seqOf f = c.expectedSeq
  swap
  · rw [if_pos hseq]
    exact otaRejectPacket_move _ hs fun h => hseq h.seq
  rw [if_neg (not_not.mpr hseq)]
  by_cases hcrc : PacketCrcOk f
  swap
  · rw [if_pos hcrc]
    exact otaRejectPacket_move _ hs fun h => hcrc h.crc
  rw [if_neg (not_not.mpr hcrc)]
  have hacc : Accepts c f := ⟨hs, hseq, hcrc⟩
  by_cases hm : hasMore f = 0
  swap
  · rw [if_neg hm]
    exact .dataContinued f hacc hm
  rw [if_pos hm]
  unfold otaLastPacket
  by_cases hfin : finalCrc c f = c.fileCrc
  · have hfin' : (otaFileCrcFinalize (afterStore c f).crc).2 = (afterStore c f).fileCrc := hfin
    simp only [if_pos hfin']
    exact .dataCommitted f ⟨hacc, hm, hfin⟩
  · have hfin' : ¬ (otaFileCrcFinalize (afterStore c f).crc).2 = (afterStore c f).fileCrc := hfin
    simp only [if_neg hfin']
    exact .dataMismatched f hacc hm hfin

/-- **Every frame makes one of the moves.** -/
theorem otaHandle_move (c : OtaContext) :
    ∀ f : AppFrame, OtaMove c f (otaHandle c f).1 (otaHandle c f).2
  | .start f => otaHandleStartRequest_move c f
  | .data f => otaHandle_data_move c f
  | .packageRetry f => by
    simp only [otaHandle, otaPackageRetry]
    split_ifs with h
    · exact .packageRetried f h
    · exact .packageRetryRefused f h
  | .eraseRetry f => by
    simp only [otaHandle, otaEraseRetry]
    split_ifs with h
    · exact .eraseRetried f
    · exact .eraseRetryRefused f

/-! ### Two sample frames -/

/-- A start request for `len` bytes with the CRC of the content `01 02 03 04`. -/
def startOf (len : UInt8) : StartFrame :=
  ⟨[0x53, 0x35, 0x06, 0x0C, len, 0, 0, 0, 1, 2, 3, 4], rfl, le_rfl, le_rfl⟩

/-- A last packet with the content `01 02 03 04`. -/
def onlyPacket : DataFrame :=
  ⟨[0x53, 0x35, 0x08, 0x0C, 0, 0, 0, 1, 2, 3, 4, 4], rfl, by decide⟩

end BleHidUart.Ota.Moves
