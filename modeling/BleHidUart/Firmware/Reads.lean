import BleHidUart.Firmware.Dispatch
import BleHidUart.Lib.ReadLog

/-!
# The parser and its handlers with their reads

The functions of the parser once more, as computations on the memory that holds the buffer: they
read a byte where the source does, in its order, and `offset` has its 16 bits. A handler gets the
pointer to its frame, so its addresses are those inside of the frame. `firmware_reads` in the next
module compares them with the functions on lists.
-/

namespace BleHidUart.Firmware.Reads

open BleHidUart.Board BleHidUart.CtrlOta.Metadata BleHidUart.Lib.Framing BleHidUart.Lib.ReadLog
open BleHidUart.Lib.ReadLog.Reading BleHidUart.Lib.Word BleHidUart.Ota.Handlers
open BleHidUart.Firmware.Dispatch BleHidUart.V2.Bridge BleHidUart.V3.Bridge BleHidUart.V3.Handlers
open BleHidUart.V3.Parser

/-! ### V3 handlers -/

/-- `V3_crc_calculate`. -/
def v3CrcCalculateReads (count : UInt8) : Reading UInt8 UInt16 := do
  let covered ← readRange 2 count.toNat
  pure (v3CrcLoop 0 1 covered)

/-- `V3_crc_verify`. -/
def v3CrcVerifyReads (count crcOffset : UInt8) : Reading UInt8 Bool := do
  let calculated ← v3CrcCalculateReads count
  let cl := (calculated &&& 0xFF).toUInt8
  let ch := ((calculated >>> 8) &&& 0xFF).toUInt8
  let low ← read crcOffset.toNat
  if low = cl then do
    let high ← read (crcOffset.toNat + 1)
    pure (high = ch)
  else pure false

/-- `V3_build_handshake_reply`. -/
def v3BuildHandshakeReplyReads (e : Eeprom) : Reading UInt8 (List UInt8) := do
  let flag := byteAt (eepromRead e ctrlOtaFlagAddr 1) 0
  let b3 ← read 3
  let b4 ← read 4
  let b5 ← read 5
  let b6 ← read 6
  let head := [v3FrameHead0, v3FrameHead1, v3CmdHandshake,
    if flag ≠ ctrlOtaFlagReady then v3OtaFlagFinish else v3OtaFlagNeed, b3, b4, b5, b6]
  let crc := v3CrcCalculate head v3CrcCountHandshakeReply
  pure (head ++ [(crc &&& 0xFF).toUInt8, ((crc >>> 8) &&& 0xFF).toUInt8])

/-- `V3_handle_handshake`. -/
def v3HandleHandshakeReads (e : Eeprom) : Reading UInt8 (List Effect) := do
  let ok ← v3CrcVerifyReads v3CrcCountHandshake v3CrcOffsetHandshake
  if ¬ ok then pure []
  else do
    let reply ← v3BuildHandshakeReplyReads e
    pure [.led .greenFastBlink, .notify reply v3FrameSizeHandshakeReply]

/-- The error frame for a frame with a wrong CRC. -/
def v3CrcErrorOf (grp cmd : UInt8) : Effect :=
  let errCmd := if cmd = v3CmdWriteCtrl then v3CmdWriteErr else v3CmdReadErr
  .notify (v3BuildErrorReply errCmd grp v3ErrCrc) v3FrameSizeError

/-- `V3_handle_read_write`. -/
def v3HandleReadWriteReads (s : V3BridgeState) (cmd : UInt8) (now : UInt32) :
    Reading UInt8 (V3BridgeState × List Effect) := do
  let grp ← read 3
  let ok ← v3CrcVerifyReads v3CrcCountNormal v3CrcOffsetNormal
  if ¬ ok then pure (s, [v3CrcErrorOf grp cmd])
  else do
    let frame ← readRange 0 v3FrameSizeNormal
    pure
      ({ s with waitingMcuReply := true, pendingCmd := cmd, pendingGrp := grp, sendTimeMs := now },
        [.uart frame])

/-- `V3_handle_mcu_reply`. -/
def v3HandleMcuReplyReads (s : V3BridgeState) (cmd : UInt8) :
    Reading UInt8 (V3BridgeState × List Effect) := do
  let grp ← read 3
  let ok ← v3CrcVerifyReads v3CrcCountNormal v3CrcOffsetNormal
  if ¬ ok then pure (s, [v3CrcErrorOf grp cmd])
  else do
    let frame ← readRange 0 v3FrameSizeNormal
    pure ({ s with waitingMcuReply := false }, [.notify frame v3FrameSizeNormal])

/-- `Handle_app_cmd_and_reply`: only the handshake looks into its frame. -/
def handleAppCmdAndReplyReads (s : BleState) (appCmd : UInt8) (now : UInt32) :
    Reading UInt8 (BleState × List Effect) :=
  if appCmd = appCmdHandshakeRsp then
    if ¬ s.controler.handshakeOk then pure (s, [.led .redSlowBlink])
    else do
      let d2 ← read 2
      let d3 ← read 3
      let d4 ← read 4
      let d5 ← read 5
      pure (s, [.notify [0xAA, 0x01, d2 ^^^ d3 ^^^ d4 ^^^ d5, 0x55] 4])
  else pure (handleAppCmdAndReply s appCmd [] now)

/-! ### OTA handlers -/

/-- A 32-bit word, byte by byte. -/
def le32Reads (i : ℕ) : Reading UInt8 UInt32 := do
  let a ← read i
  let b ← read (i + 1)
  let c ← read (i + 2)
  let d ← read (i + 3)
  pure (le32 a b c d)

/-- `OtaHandleStartRequest`. -/
def otaHandleStartRequestReads (c : OtaContext) : Reading UInt8 (OtaContext × List Effect) :=
  if c.state ≠ .idle then pure (c, [])
  else do
    let clear := writeFlag 0
    let fileLen ← le32Reads 4
    let fileCrc ← le32Reads 8
    if fileLen = 0 then pure (otaReset, clear ++ [otaSendStartResponse otaResultFail])
    else if ctrlOtaFlagAddr < fileLen then
      pure (otaReset, clear ++ [otaSendStartResponse otaResultFail])
    else
      let erase := eepromErase otaEepromBaseAddr fileLen
      pure (otaRestart { c with fileLength := fileLen, fileCrc := fileCrc, state := .erasing },
        clear ++ [otaSendStartResponse otaResultSuccess] ++ erase ++
          [otaSendFlashEraseDone otaResultSuccess])

/-- `OtaHandleDataPacket`. The bytes that are stored are read once more. -/
def otaHandleDataPacketReads (c : OtaContext) (frameLen : UInt16) :
    Reading UInt8 (OtaContext × List Effect) :=
  if c.state ≠ .receiving then pure (c, [])
  else if frameLen < otaFrameDataMinSize ∨ otaFrameDataMaxSize < frameLen then pure (c, [])
  else do
    let s0 ← read 4
    let s1 ← read 5
    let seq := le16 s0 s1
    if seq ≠ c.expectedSeq then pure (otaRejectPacket c seq)
    else do
      let contentLen := frameLen - 8
      let content ← readRange 7 contentLen.toNat
      let receivedCrc ← read (frameLen - 1).toNat
      if otaPacketCrcCalculate content ≠ receivedCrc then pure (otaRejectPacket c c.expectedSeq)
      else do
        let hasMore ← read 6
        let valid ← readRange 7 (otaValidLen c contentLen).toNat
        let stored := otaStorePacket c valid contentLen
        if hasMore = 0x00 then
          let closed := otaLastPacket stored.1 seq
          pure (closed.1, stored.2 ++ closed.2)
        else pure (stored.1, stored.2 ++ [otaSendDataAck seq otaAckContinue])

/-- `OtaPackageRetry`. -/
def otaPackageRetryReads (c : OtaContext) : Reading UInt8 (OtaContext × List Effect) := do
  let b ← read 4
  if b = 0x0E then
    pure (otaRestart c, eepromErase otaEepromBaseAddr c.fileLength ++
      [otaSendPackageRetryAck otaResultSuccess])
  else pure (c, [otaSendPackageRetryAck otaResultFail])

/-- `OtaEraseRetry`. -/
def otaEraseRetryReads (c : OtaContext) : Reading UInt8 (OtaContext × List Effect) := do
  let b ← read 4
  if b = 0x09 then pure ({ c with state := .idle }, [otaSendEraseRetryAck otaResultSuccess])
  else pure (c, [otaSendEraseRetryAck otaResultFail])

/-- A call of a handler with the pointer to its frame; the bytes that the call carries are not
used. -/
def callHandlerReads (b : Bridge) (k : HandlerCall) (now : UInt32) :
    Reading UInt8 (Bridge × List Effect) :=
  match k with
  | .appCmd appCmd _ => do
    let r ← handleAppCmdAndReplyReads b.ble appCmd now
    pure ({ b with ble := r.1 }, r.2)
  | .handshake _ => do
    let fx ← v3HandleHandshakeReads b.ee
    pure (b, fx)
  | .readWrite _ cmd => do
    let r ← v3HandleReadWriteReads b.ble.v3 cmd now
    pure (b.setV3 r)
  | .mcuReply _ cmd => do
    let r ← v3HandleMcuReplyReads b.ble.v3 cmd
    pure (b.setV3 r)
  | .otaStart _ => do
    let r ← otaHandleStartRequestReads b.ota
    pure (b.setOta r)
  | .otaData _ frameLen => do
    let r ← otaHandleDataPacketReads b.ota frameLen
    pure (b.setOta r)
  | .packageRetry _ => do
    let r ← otaPackageRetryReads b.ota
    pure (b.setOta r)
  | .eraseRetry _ => do
    let r ← otaEraseRetryReads b.ota
    pure (b.setOta r)

/-! ### The parser -/

/-- The `switch` on the command of a `53 35` frame; the OTA commands read the length. -/
def v3PktLenReads (cmd : UInt8) (i : ℕ) : Reading UInt8 (Option ℕ) :=
  if cmd = v3CmdHandshake ∨ cmd = v3CmdReadCtrl ∨ cmd = v3CmdWriteCtrl then pure (v3PktLen cmd 0)
  else if cmd = otaCmdStart ∨ cmd = otaCmdData ∨ cmd = otaCmdDataRetry ∨
    cmd = otaCmdEraseRetry then do
    let len ← read i
    pure (v3PktLen cmd len)
  else pure none

/-- What a round of the loop of `V3_parse_buffer` does: `offset++`, a packet, or `break`. -/
def v3RoundReads (len : ℕ) (fromApp : Bool) (offset : ℕ) : Reading UInt8 (Scan HandlerCall) := do
  let head ← read offset
  if head ≠ appFrameHead ∧ head ≠ v3FrameHead0 then pure .skip
  else if head = appFrameHead then
    if len ≤ offset + 2 then pure .stop
    else do
      let cmd ← read (offset + 1)
      match appPktLen cmd with
      | none => pure .skip
      | some pktLen =>
        if len < offset + pktLen then pure .stop
        else do
          let trail ← read (offset + pktLen - 1)
          pure (.packet pktLen (if trail = appFrameTrail then some (.appCmd cmd []) else none))
  else do
    let second ← read (offset + 1)
    if second ≠ v3FrameHead1 ∨ len ≤ offset + 3 then pure .stop
    else do
      let cmd ← read (offset + 2)
      let size ← v3PktLenReads cmd (offset + 3)
      match size with
      | none => pure .skip
      | some pktLen =>
        if len < offset + pktLen then pure .stop
        else pure (.packet pktLen (v3Dispatch fromApp cmd [] pktLen))

/-- The outcome of a run of the parser, with what was added to the offset, and to which offset. -/
structure ParseRun where
  bridge : Bridge
  effects : List Effect
  moves : List (UInt16 × UInt16)

/-- One more packet before the rest of the run. -/
def ParseRun.after (fx : List Effect) (move : UInt16 × UInt16) (r : ParseRun) : ParseRun :=
  { r with effects := fx ++ r.effects, moves := move :: r.moves }

/-- The loop of `V3_parse_buffer` from `offset` on; `none` if `fuel` rounds are not enough. -/
def v3ParseReads (len : UInt16) (fromApp : Bool) : ℕ → UInt16 → Bridge → (ℕ → UInt32) →
    Reading UInt8 (Option ParseRun)
  | fuel, offset, b, clock =>
    if len ≤ offset then pure (some ⟨b, [], []⟩)
    else
      match fuel with
      | 0 => pure none
      | fuel + 1 => do
        let round ← v3RoundReads len.toNat fromApp offset.toNat
        match round with
        | .stop => pure (some ⟨b, [], []⟩)
        | .skip => do
          let r ← v3ParseReads len fromApp fuel (offset + 1) b clock
          pure (r.map (.after [] (offset, 1)))
        | .packet pktLen none => do
          let r ← v3ParseReads len fromApp fuel (offset + UInt16.ofNat pktLen) b clock
          pure (r.map (.after [] (offset, UInt16.ofNat pktLen)))
        | .packet pktLen (some k) => do
          let c ← (callHandlerReads b k (clock 0)).shift offset.toNat
          let r ← v3ParseReads len fromApp fuel (offset + UInt16.ofNat pktLen) c.1
            fun i => clock (i + 1)
          pure (r.map (.after c.2 (offset, UInt16.ofNat pktLen)))

end BleHidUart.Firmware.Reads
