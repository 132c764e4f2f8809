import BleHidUart.Ota.Handlers
import BleHidUart.V3.Handlers

/-!
# The frame parser

`V3_parse_buffer` looks for frames in a buffer: `55 cmd … AA` and `53 35 cmd …`. Here it gives the
calls of the handlers in order; a call carries the bytes of its frame, which are all that the
handler reads. `offset` never exceeds `len`, so its 16 bits do not wrap.
-/

namespace BleHidUart.V3.Parser

open BleHidUart.Board BleHidUart.Lib.Word BleHidUart.Ota.Handlers BleHidUart.V3.Bridge
open BleHidUart.V3.Handlers

def appFrameHead : UInt8 := 0x55
def appFrameTrail : UInt8 := 0xAA

/-- A call of a handler by the parser. -/
inductive HandlerCall
  | appCmd (appCmd : UInt8) (frame : List UInt8)
  | handshake (frame : List UInt8)
  | readWrite (frame : List UInt8) (cmd : UInt8)
  | mcuReply (frame : List UInt8) (cmd : UInt8)
  | otaStart (frame : List UInt8)
  | otaData (frame : List UInt8) (frameLen : UInt16)
  | packageRetry (frame : List UInt8)
  | eraseRetry (frame : List UInt8)
  deriving DecidableEq, Repr

/-- The frame of a call. -/
def HandlerCall.frame : HandlerCall → List UInt8
  | .appCmd _ frame | .handshake frame | .readWrite frame _ | .mcuReply frame _
  | .otaStart frame | .otaData frame _ | .packageRetry frame | .eraseRetry frame => frame

/-- The length of a `55` frame; `none` for an unknown command. -/
def appPktLen (cmd : UInt8) : Option ℕ :=
  if cmd = 0x01 then some 7
  else if cmd = 0x02 then some 3
  else if cmd = 0x03 then some 3
  else if cmd = 0x04 then some 3
  else if cmd = 0x05 then some 3
  else none

/-- The `switch` on the command of a `53 35` frame, with its byte 3: the length of the frame, or
`none` where one byte is skipped. -/
def v3PktLen (cmd len : UInt8) : Option ℕ :=
  if cmd = v3CmdHandshake then some v3FrameSizeHandshake
  else if cmd = v3CmdReadCtrl ∨ cmd = v3CmdWriteCtrl then some v3FrameSizeNormal
  else if cmd = otaCmdStart then if len.toNat ≠ otaFrameStartReqSize then none else some len.toNat
  else if cmd = otaCmdData then
    if len.toUInt16 < otaFrameDataMinSize ∨ otaFrameDataMaxSize < len.toUInt16 then none
    else some len.toNat
  else if cmd = otaCmdDataRetry ∨ cmd = otaCmdEraseRetry then
    if len.toNat ≠ otaFrameFlashEraseRspSize then none else some len.toNat
  else none

/-- The handler of a complete `53 35` frame of `pktLen` bytes. -/
def v3Dispatch (fromApp : Bool) (cmd : UInt8) (frame : List UInt8) (pktLen : ℕ) :
    Option HandlerCall :=
  if cmd = v3CmdHandshake then if fromApp then some (.handshake frame) else none
  else if cmd = v3CmdWriteCtrl ∨ cmd = v3CmdReadCtrl then
    if fromApp then some (.readWrite frame cmd) else some (.mcuReply frame cmd)
  else if cmd = otaCmdStart ∧ fromApp then some (.otaStart frame)
  else if cmd = otaCmdData ∧ fromApp then some (.otaData frame (UInt16.ofNat pktLen))
  else if cmd = otaCmdDataRetry ∧ fromApp then some (.packageRetry frame)
  else if cmd = otaCmdEraseRetry ∧ fromApp then some (.eraseRetry frame)
  else none

/-- The loop of `V3_parse_buffer` from `offset` on. A round moves the offset on: `len` rounds are
enough. -/
def v3ParseLoop (data : List UInt8) (len : ℕ) (fromApp : Bool) : ℕ → ℕ → List HandlerCall
  | 0, _ => []
  | fuel + 1, offset =>
    if len ≤ offset then []
    else if byteAt data offset ≠ appFrameHead ∧ byteAt data offset ≠ v3FrameHead0 then
      v3ParseLoop data len fromApp fuel (offset + 1)
    else if byteAt data offset = appFrameHead then
      if len ≤ offset + 2 then []
      else
        let cmd := byteAt data (offset + 1)
        match appPktLen cmd with
        | none => v3ParseLoop data len fromApp fuel (offset + 1)
        | some pktLen =>
          if len < offset + pktLen then []
          else
            -- a packet with another last byte is skipped as a whole
            (if byteAt data (offset + pktLen - 1) = appFrameTrail then
              [.appCmd cmd ((data.drop offset).take pktLen)] else []) ++
              v3ParseLoop data len fromApp fuel (offset + pktLen)
    else if byteAt data (offset + 1) ≠ v3FrameHead1 ∨ len ≤ offset + 3 then []
    else
      let cmd := byteAt data (offset + 2)
      match v3PktLen cmd (byteAt data (offset + 3)) with
      | none => v3ParseLoop data len fromApp fuel (offset + 1)
      | some pktLen =>
        if len < offset + pktLen then []
        else
          (v3Dispatch fromApp cmd ((data.drop offset).take pktLen) pktLen).toList ++
            v3ParseLoop data len fromApp fuel (offset + pktLen)

/-- `V3_parse_buffer`. -/
def v3ParseBuffer (data : List UInt8) (len : UInt16) (fromApp : Bool) : List HandlerCall :=
  v3ParseLoop data len.toNat fromApp len.toNat 0

/-- `V3_handle_app_data`: the calls it makes. -/
def v3HandleAppData (data : List UInt8) (len : UInt16) : List HandlerCall :=
  if len = 0 then [] else v3ParseBuffer data len true

/-- `V3_handle_mcu_data`: the calls it makes. -/
def v3HandleMcuData (data : List UInt8) (len : UInt16) : List HandlerCall :=
  if len = 0 then [] else v3ParseBuffer data len false

/-- `V3_frame_size_from_cmd`; `0` is an unknown command. -/
def v3FrameSizeFromCmd (cmd : UInt8) : ℕ :=
  if cmd = v3CmdHandshake then v3FrameSizeHandshake
  else if cmd = v3CmdReadCtrl ∨ cmd = v3CmdWriteCtrl then v3FrameSizeNormal
  else if cmd = v3CmdWriteErr ∨ cmd = v3CmdReadErr then v3FrameSizeError
  else 0

end BleHidUart.V3.Parser
