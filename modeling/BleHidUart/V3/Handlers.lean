import BleHidUart.CtrlOta.Metadata
import BleHidUart.V3.Bridge

/-!
# The V3 handlers

A handshake of the app is answered with the OTA flag; a read or write frame is forwarded to the
controller and becomes the pending request; a reply of the controller is forwarded to the app and
clears it. Frames with a wrong CRC are answered with an error frame, handshakes with nothing.
-/

namespace BleHidUart.V3.Handlers

open BleHidUart.Board BleHidUart.CtrlOta.Metadata BleHidUart.Lib.Word BleHidUart.V3.Bridge

def v3CmdHandshake : UInt8 := 0x01
def v3CmdReadCtrl : UInt8 := 0x0F

def v3ErrCrc : UInt8 := 0x01

def v3OtaFlagFinish : UInt8 := 0x00
def v3OtaFlagNeed : UInt8 := 0x01

def v3FrameSizeHandshake : ℕ := 9
def v3FrameSizeNormal : ℕ := 20
def v3FrameSizeHandshakeReply : ℕ := 10

def v3CrcCountHandshake : UInt8 := 5
def v3CrcCountNormal : UInt8 := 16
def v3CrcCountHandshakeReply : UInt8 := 6

def v3CrcOffsetHandshake : UInt8 := 7
def v3CrcOffsetNormal : UInt8 := 18

/-- `V3_crc_verify`. The offset of the second CRC byte is computed as an `int`. -/
def v3CrcVerify (frame : List UInt8) (count crcOffset : UInt8) : Bool :=
  let calculated := v3CrcCalculate frame count
  let cl := (calculated &&& 0xFF).toUInt8
  let ch := ((calculated >>> 8) &&& 0xFF).toUInt8
  byteAt frame crcOffset.toNat = cl ∧ byteAt frame (crcOffset.toNat + 1) = ch

/-- `V3_build_handshake_reply`. -/
def v3BuildHandshakeReply (e : Eeprom) (frame : List UInt8) : List UInt8 :=
  let flag := byteAt (eepromRead e ctrlOtaFlagAddr 1) 0
  let head := [v3FrameHead0, v3FrameHead1, v3CmdHandshake,
    if flag ≠ ctrlOtaFlagReady then v3OtaFlagFinish else v3OtaFlagNeed,
    byteAt frame 3, byteAt frame 4, byteAt frame 5, byteAt frame 6]
  let crc := v3CrcCalculate head v3CrcCountHandshakeReply
  head ++ [(crc &&& 0xFF).toUInt8, ((crc >>> 8) &&& 0xFF).toUInt8]

/-- `V3_handle_handshake`. -/
def v3HandleHandshake (e : Eeprom) (frame : List UInt8) : List Effect :=
  if ¬ v3CrcVerify frame v3CrcCountHandshake v3CrcOffsetHandshake then []
  else [.led .greenFastBlink, .notify (v3BuildHandshakeReply e frame) v3FrameSizeHandshakeReply]

/-- The error frame for a frame with a wrong CRC. -/
def v3CrcError (frame : List UInt8) (cmd : UInt8) : Effect :=
  let grp := byteAt frame 3
  let errCmd := if cmd = v3CmdWriteCtrl then v3CmdWriteErr else v3CmdReadErr
  .notify (v3BuildErrorReply errCmd grp v3ErrCrc) v3FrameSizeError

/-- `V3_handle_read_write`. -/
def v3HandleReadWrite (s : V3BridgeState) (frame : List UInt8) (cmd : UInt8) (now : UInt32) :
    V3BridgeState × List Effect :=
  let grp := byteAt frame 3
  if ¬ v3CrcVerify frame v3CrcCountNormal v3CrcOffsetNormal then (s, [v3CrcError frame cmd])
  else
    ({ s with waitingMcuReply := true, pendingCmd := cmd, pendingGrp := grp, sendTimeMs := now },
      [.uart (frame.take v3FrameSizeNormal)])

/-- `V3_handle_mcu_reply`. -/
def v3HandleMcuReply (s : V3BridgeState) (frame : List UInt8) (cmd : UInt8) :
    V3BridgeState × List Effect :=
  if ¬ v3CrcVerify frame v3CrcCountNormal v3CrcOffsetNormal then (s, [v3CrcError frame cmd])
  else
    ({ s with waitingMcuReply := false },
      [.notify (frame.take v3FrameSizeNormal) v3FrameSizeNormal])

end BleHidUart.V3.Handlers
