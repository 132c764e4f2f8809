import BleHidUart.Board

/-!
# The V3 bridge: the pending request and its timeout

A read or write request of the app that was forwarded to the controller is pending until the reply
is forwarded back. The timer of the firmware checks it together with the V2 requests and answers the
app with an error frame after 800 ms.
-/

namespace BleHidUart.V3.Bridge

open BleHidUart.Board

def v3CmdWriteCtrl : UInt8 := 0x00
def v3CmdWriteErr : UInt8 := 0x10
def v3CmdReadErr : UInt8 := 0x1F

def v3ErrMcuNoReply : UInt8 := 0x02

def v3CrcCountError : UInt8 := 3
def v3FrameSizeError : ℕ := 7
def v3McuReplyTimeoutMs : UInt32 := 800

/-- `v3_bridge_state_t`. -/
structure V3BridgeState where
  waitingMcuReply : Bool := false
  pendingCmd : UInt8 := 0
  pendingGrp : UInt8 := 0
  sendTimeMs : UInt32 := 0
  deriving DecidableEq, Repr

/-- The loop of `V3_crc_calculate`: the covered bytes weighted with their positions. -/
def v3CrcLoop (crc weight : UInt16) : List UInt8 → UInt16
  | [] => crc
  | b :: bs => v3CrcLoop (crc + weight * b.toUInt16) (weight + 1) bs

/-- `V3_crc_calculate`, over `count` bytes from index 2 on. -/
def v3CrcCalculate (frame : List UInt8) (count : UInt8) : UInt16 :=
  v3CrcLoop 0 1 ((frame.drop 2).take count.toNat)

/-- `V3_build_error_reply`. -/
def v3BuildErrorReply (errorCmd grp sta : UInt8) : List UInt8 :=
  let head := [v3FrameHead0, v3FrameHead1, errorCmd, grp, sta]
  let crc := v3CrcCalculate head v3CrcCountError
  head ++ [(crc &&& 0xFF).toUInt8, ((crc >>> 8) &&& 0xFF).toUInt8]

/-- `V3_timeout_check`. -/
def v3TimeoutCheck (s : V3BridgeState) (nowMs : UInt32) : V3BridgeState × List Effect :=
  if !s.waitingMcuReply then (s, [])
  else if v3McuReplyTimeoutMs ≤ nowMs - s.sendTimeMs then
    let errCmd := if s.pendingCmd = v3CmdWriteCtrl then v3CmdWriteErr else v3CmdReadErr
    ({ s with waitingMcuReply := false },
      [.notify (v3BuildErrorReply errCmd s.pendingGrp v3ErrMcuNoReply) v3FrameSizeError])
  else (s, [])

end BleHidUart.V3.Bridge
