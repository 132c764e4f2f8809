import BleHidUart.CtrlOta.Metadata

/-!
# The app-side download: context and handlers

The app sends a start request with the length and the CRC of the file, then numbered data packets.
Each accepted packet is written to the EEPROM from address `0` on and absorbed into the CRC of the
file; the packet marked as the last one decides whether the ready flag is set. A handler takes the
context and a frame to the next context and its effects. `printk` output is left out.
-/

namespace BleHidUart.Ota.Handlers

open BleHidUart.Board BleHidUart.CtrlOta.Metadata BleHidUart.Lib.Word

def otaCmdStart : UInt8 := 0x06
def otaCmdFlashEraseDone : UInt8 := 0x07
def otaCmdData : UInt8 := 0x08
def otaCmdDataRetry : UInt8 := 0x0B
def otaCmdEraseRetry : UInt8 := 0x0C

def otaFrameStartReqSize : ℕ := 12
def otaFrameStartRspSize : ℕ := 5
def otaFrameFlashEraseRspSize : ℕ := 5
def otaFrameDataAckSize : ℕ := 7
def otaFrameDataMinSize : UInt16 := 8
def otaFrameDataMaxSize : UInt16 := 208

def otaResultSuccess : UInt8 := 0x01
def otaResultFail : UInt8 := 0x02
def otaAckContinue : UInt8 := 0x01
def otaAckResend : UInt8 := 0x02
def otaAckFail : UInt8 := 0x03

def otaEepromBaseAddr : UInt32 := 0x0000
def otaMaxResendCount : UInt8 := 10

/-- `OtaState`. -/
inductive OtaState
  | idle | startReceived | erasing | receiving | complete | error
  deriving DecidableEq, Repr

/-- The fields `running_crc`, `crc_partial_word` and `crc_partial_shift` of `OtaContext`, which are
the state of the incremental CRC of the file. -/
structure FileCrc where
  runningCrc : UInt32 := 0
  crcPartialWord : UInt32 := 0
  crcPartialShift : UInt8 := 0
  deriving DecidableEq, Repr

/-- `OtaContext`. -/
structure OtaContext where
  state : OtaState := .idle
  fileLength : UInt32 := 0
  fileCrc : UInt32 := 0
  receivedLength : UInt32 := 0
  expectedSeq : UInt16 := 0
  eepromAddr : UInt32 := 0
  resendCount : UInt8 := 0
  crc : FileCrc := {}
  deriving DecidableEq, Repr

/-! ### CRC functions -/

/-- The loop of `OtaFileCrcCalculate`: full words, then the rest padded with `0xFF`. -/
def otaFileCrcLoop (crc : UInt32) : List UInt8 → UInt32
  | a :: b :: c :: d :: content => otaFileCrcLoop (crc ^^^ le32 a b c d) content
  | [a, b, c] => crc ^^^ le32 a b c 0xFF
  | [a, b] => crc ^^^ le32 a b 0xFF 0xFF
  | [a] => crc ^^^ le32 a 0xFF 0xFF 0xFF
  | [] => crc

/-- `OtaFileCrcCalculate`, on a little-endian machine. -/
def otaFileCrcCalculate (content : List UInt8) : UInt32 := otaFileCrcLoop 0 content

/-- `Ota_Packet_CrcCalculate`. -/
def otaPacketCrcCalculate (data : List UInt8) : UInt8 := data.foldl (fun crc b => crc ^^^ b) 0

/-- `OtaFileCrcReset`. -/
def otaFileCrcReset : FileCrc := {}

/-- One round of the loop of `OtaFileCrcUpdate`. -/
def otaFileCrcByte (f : FileCrc) (b : UInt8) : FileCrc :=
  let p := f.crcPartialWord ||| (b.toUInt32 <<< f.crcPartialShift.toUInt32)
  let s := f.crcPartialShift + 8
  if s = 32 then ⟨f.runningCrc ^^^ p, 0, 0⟩ else ⟨f.runningCrc, p, s⟩

/-- `OtaFileCrcUpdate`. -/
def otaFileCrcUpdate (f : FileCrc) (data : List UInt8) : FileCrc := data.foldl otaFileCrcByte f

/-- The padding loop of `OtaFileCrcFinalize`. The shift is positive and grows by `8` up to `32`:
four rounds are enough. -/
def otaFileCrcPad : ℕ → UInt32 → UInt8 → UInt32 × UInt8
  | 0, p, s => (p, s)
  | fuel + 1, p, s =>
    if s < 32 then otaFileCrcPad fuel (p ||| ((0xFF : UInt32) <<< s.toUInt32)) (s + 8) else (p, s)

/-- `OtaFileCrcFinalize`: the next state and the CRC returned. -/
def otaFileCrcFinalize (f : FileCrc) : FileCrc × UInt32 :=
  if 0 < f.crcPartialShift then
    let p := (otaFileCrcPad 4 f.crcPartialWord f.crcPartialShift).1
    (⟨f.runningCrc ^^^ p, 0, 0⟩, f.runningCrc ^^^ p)
  else (f, f.runningCrc)

/-! ### Response builders -/

/-- `OtaSendStartResponse`. -/
def otaSendStartResponse (result : UInt8) : Effect :=
  .notify [v3FrameHead0, v3FrameHead1, otaCmdStart, UInt8.ofNat otaFrameStartRspSize, result]
    otaFrameStartRspSize

/-- `OtaSendFlashEraseDone`. -/
def otaSendFlashEraseDone (result : UInt8) : Effect :=
  .notify [v3FrameHead0, v3FrameHead1, otaCmdFlashEraseDone,
    UInt8.ofNat otaFrameFlashEraseRspSize, result] otaFrameFlashEraseRspSize

/-- `OtaSendDataAck`. -/
def otaSendDataAck (seq : UInt16) (result : UInt8) : Effect :=
  .notify [v3FrameHead0, v3FrameHead1, otaCmdData, UInt8.ofNat otaFrameDataAckSize,
    (seq &&& 0xFF).toUInt8, ((seq >>> 8) &&& 0xFF).toUInt8, result] otaFrameDataAckSize

/-- `OtaSendPackageRetryAck`. It passes the length of a data ACK for a buffer of five bytes. -/
def otaSendPackageRetryAck (result : UInt8) : Effect :=
  .notify [v3FrameHead0, v3FrameHead1, otaCmdDataRetry,
    UInt8.ofNat otaFrameFlashEraseRspSize, result] otaFrameDataAckSize

/-- `OtaSendEraseRetryAck`. It passes the length of a data ACK for a buffer of five bytes. -/
def otaSendEraseRetryAck (result : UInt8) : Effect :=
  .notify [v3FrameHead0, v3FrameHead1, otaCmdEraseRetry,
    UInt8.ofNat otaFrameFlashEraseRspSize, result] otaFrameDataAckSize

/-! ### Handlers -/

/-- `Ota_init`. -/
def otaInit : OtaContext := {}

/-- `OtaReset`. -/
def otaReset : OtaContext := {}

/-- The reset of a session that starts over: address, sequence number, counters and CRC. -/
def otaRestart (c : OtaContext) : OtaContext :=
  { c with
    state := .receiving
    eepromAddr := otaEepromBaseAddr
    expectedSeq := 0
    receivedLength := 0
    resendCount := 0
    crc := otaFileCrcReset }

/-- `OtaHandleStartRequest`. -/
def otaHandleStartRequest (c : OtaContext) (frame : List UInt8) : OtaContext × List Effect :=
  if c.state ≠ .idle then (c, [])
  else
    let clear := writeFlag 0
    let fileLen := le32At frame 4
    let fileCrc := le32At frame 8
    if fileLen = 0 then (otaReset, clear ++ [otaSendStartResponse otaResultFail])
    else if ctrlOtaFlagAddr < fileLen then
      (otaReset, clear ++ [otaSendStartResponse otaResultFail])
    else
      let c := { c with fileLength := fileLen, fileCrc := fileCrc, state := .startReceived }
      let c := { c with state := .erasing }
      let erase := eepromErase otaEepromBaseAddr fileLen
      (otaRestart c, clear ++ [otaSendStartResponse otaResultSuccess] ++ erase ++
        [otaSendFlashEraseDone otaResultSuccess])

/-- Both reject paths of `OtaHandleDataPacket`; they differ in the sequence number of the ACK. -/
def otaRejectPacket (c : OtaContext) (ackSeq : UInt16) : OtaContext × List Effect :=
  let c := { c with resendCount := c.resendCount + 1 }
  if otaMaxResendCount ≤ c.resendCount then (otaReset, [otaSendDataAck ackSeq otaAckFail])
  else (c, [otaSendDataAck ackSeq otaAckResend])

/-- `valid_len` of `OtaHandleDataPacket`. -/
def otaValidLen (c : OtaContext) (contentLen : UInt16) : UInt16 :=
  let remaining := c.fileLength - c.receivedLength
  if contentLen.toUInt32 ≤ remaining then contentLen else remaining.toUInt16

/-- The packet number and the resend counter after an accepted packet. -/
def otaNextPacket (c : OtaContext) : OtaContext :=
  { c with expectedSeq := c.expectedSeq + 1, resendCount := 0 }

/-- The part of `OtaHandleDataPacket` that stores an accepted packet. -/
def otaStorePacket (c : OtaContext) (content : List UInt8) (contentLen : UInt16) :
    OtaContext × List Effect :=
  let validLen := otaValidLen c contentLen
  if 0 < validLen then
    let valid := content.take validLen.toNat
    (otaNextPacket { c with
        crc := otaFileCrcUpdate c.crc valid
        eepromAddr := c.eepromAddr + validLen.toUInt32
        receivedLength := c.receivedLength + validLen.toUInt32 },
      eepromWrite c.eepromAddr valid)
  else (otaNextPacket c, [])

/-- The part of `OtaHandleDataPacket` that closes a session: the file CRC decides. -/
def otaLastPacket (c : OtaContext) (seq : UInt16) : OtaContext × List Effect :=
  let finalCrc := (otaFileCrcFinalize c.crc).2
  if finalCrc = c.fileCrc then
    (otaReset, otaSendDataAck seq otaAckContinue :: ctrlOtaSetotaReadyflag c.fileLength c.fileCrc)
  else (otaReset, [otaSendDataAck seq otaAckFail])

/-- `OtaHandleDataPacket`. -/
def otaHandleDataPacket (c : OtaContext) (frame : List UInt8) (frameLen : UInt16) :
    OtaContext × List Effect :=
  if c.state ≠ .receiving then (c, [])
  else if frameLen < otaFrameDataMinSize ∨ otaFrameDataMaxSize < frameLen then (c, [])
  else
    let seq := le16 (byteAt frame 4) (byteAt frame 5)
    if seq ≠ c.expectedSeq then otaRejectPacket c seq
    else
      let contentLen := frameLen - 8
      let content := (frame.drop 7).take contentLen.toNat
      let computedCrc := otaPacketCrcCalculate content
      let receivedCrc := byteAt frame (frameLen - 1).toNat
      if computedCrc ≠ receivedCrc then otaRejectPacket c c.expectedSeq
      else
        let hasMore := byteAt frame 6
        let stored := otaStorePacket c content contentLen
        if hasMore = 0x00 then
          let closed := otaLastPacket stored.1 seq
          (closed.1, stored.2 ++ closed.2)
        else (stored.1, stored.2 ++ [otaSendDataAck seq otaAckContinue])

/-- `OtaPackageRetry`. -/
def otaPackageRetry (c : OtaContext) (frame : List UInt8) : OtaContext × List Effect :=
  if byteAt frame 4 = 0x0E then
    let c := { c with state := .erasing }
    let erase := eepromErase otaEepromBaseAddr c.fileLength
    (otaRestart c, erase ++ [otaSendPackageRetryAck otaResultSuccess])
  else (c, [otaSendPackageRetryAck otaResultFail])

/-- `OtaEraseRetry`. -/
def otaEraseRetry (c : OtaContext) (frame : List UInt8) : OtaContext × List Effect :=
  if byteAt frame 4 = 0x09 then ({ c with state := .idle }, [otaSendEraseRetryAck otaResultSuccess])
  else (c, [otaSendEraseRetryAck otaResultFail])

/-! ### Frames and steps -/

/-- A frame the parser admits: header, command, its own length in byte 3, and a length in range. -/
structure OtaFrame (cmd : UInt8) (lo hi : ℕ) where
  bytes : List UInt8
  head : bytes.take 4 = [v3FrameHead0, v3FrameHead1, cmd, UInt8.ofNat bytes.length]
  size : lo ≤ bytes.length ∧ bytes.length ≤ hi

abbrev StartFrame := OtaFrame otaCmdStart 12 12
abbrev DataFrame := OtaFrame otaCmdData 8 208
abbrev PackageRetryFrame := OtaFrame otaCmdDataRetry 5 5
abbrev EraseRetryFrame := OtaFrame otaCmdEraseRetry 5 5

/-- The OTA frames of the app. -/
inductive AppFrame
  | start (f : StartFrame)
  | data (f : DataFrame)
  | packageRetry (f : PackageRetryFrame)
  | eraseRetry (f : EraseRetryFrame)

/-- The handler of a frame, as `V3_parse_buffer` calls it. -/
def otaHandle (c : OtaContext) : AppFrame → OtaContext × List Effect
  | .start f => otaHandleStartRequest c f.bytes
  | .data f => otaHandleDataPacket c f.bytes (UInt16.ofNat f.bytes.length)
  | .packageRetry f => otaPackageRetry c f.bytes
  | .eraseRetry f => otaEraseRetry c f.bytes

/-- The app side as a machine: the context and the EEPROM it writes. -/
def otaStep (s : OtaContext × Eeprom) (f : AppFrame) : (OtaContext × Eeprom) × List Effect :=
  (((otaHandle s.1 f).1, applyEffects s.2 (otaHandle s.1 f).2), (otaHandle s.1 f).2)

end BleHidUart.Ota.Handlers
