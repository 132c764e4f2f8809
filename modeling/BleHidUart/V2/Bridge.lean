import BleHidUart.V3.Bridge

/-!
# The V2 bridge: commands, replies and timeouts

The app asks for the lock state, unlocks, locks or asks for faults; the firmware sends a command of
20 bytes to the controller, decodes the reply of two bytes by the command it sent last, and answers
the app. A timer looks every 200 ms for commands without a reply after 2000 ms. `printk` output is
left out, and the controller simulation, which is switched off.
-/

namespace BleHidUart.V2.Bridge

open BleHidUart.Board BleHidUart.Lib.Word BleHidUart.V3.Bridge

/-- `ble_cmd_type_t`. -/
inductive BleCmd
  | handshakeRsp | unlockStatusRsp | unlockRsp | lockRsp | faultQueryRsp
  deriving DecidableEq, Repr

def appCmdHandshakeRsp : UInt8 := 1
def appCmdQueryUnlockRsp : UInt8 := 2
def appCmdUnlockRsp : UInt8 := 3
def appCmdLockRsp : UInt8 := 4
def appCmdFaultQueryRsp : UInt8 := 5

def mcuMaxLen : ℕ := 128

/-- `cmd_wait_t`. -/
structure CmdWait where
  waiting : Bool := false
  sendTimeMs : UInt32 := 0
  timeoutState : Bool := false
  deriving DecidableEq, Repr

/-- `controler_state_t`; `none` is the last command `-1`. -/
structure ControlerState where
  handshakeOk : Bool := false
  activeOk : Bool := false
  lastCmdType : Option BleCmd := none
  deriving DecidableEq, Repr

/-- The state of the bridge: `g_controler_state`, `cmd_wait`, `handshake_retry_count` and
`v3_state`. -/
structure BleState where
  controler : ControlerState := {}
  cmdWait : BleCmd → CmdWait := fun _ => {}
  handshakeRetryCount : ℕ := 0
  v3 : V3BridgeState := {}

/-! ### Commands -/

/-- The five commands of 20 bytes; they differ in their bytes 14, 18 and 19. -/
def protocolCmd (b14 b18 b19 : UInt8) : List UInt8 :=
  [0x5A, 0xA5, 0, 0, 0, 0, 0, 0, 0, 0, 0, 0, 0, 0, b14, 0, 0, 0, b18, b19]

def handshakeCmd : List UInt8 := protocolCmd 0x3C 0x0C 0x03
def faultQueryCmd : List UInt8 := protocolCmd 0x3B 0x0C 0x02
def unlockStatusCmd : List UInt8 := protocolCmd 0xCC 0x5C 0x0A
def unlockCmd : List UInt8 := protocolCmd 0x33 0x97 0x02
def lockCmd : List UInt8 := protocolCmd 0xC3 0xE7 0x09

/-- The `switch` of `BLE_send_protocol_cmd`. -/
def cmdBytes : BleCmd → List UInt8
  | .handshakeRsp => handshakeCmd
  | .faultQueryRsp => faultQueryCmd
  | .unlockStatusRsp => unlockStatusCmd
  | .unlockRsp => unlockCmd
  | .lockRsp => lockCmd

/-- `reply_app_status`. -/
def replyAppStatus (cmd resultCode : UInt8) : Effect := .notify [0xAA, cmd, resultCode, 0x55] 4

/-- `BLE_send_protocol_cmd`. -/
def bleSendProtocolCmd (s : BleState) (cmd : BleCmd) (now : UInt32) : BleState × List Effect :=
  if cmd ≠ .handshakeRsp ∧ ¬ s.controler.handshakeOk then (s, [])
  else
    ({ s with
        controler := { s.controler with lastCmdType := some cmd }
        cmdWait := Function.update s.cmdWait cmd
          { s.cmdWait cmd with waiting := true, sendTimeMs := now } },
      [.uart (cmdBytes cmd)])

/-- `Handle_app_cmd_and_reply`. -/
def handleAppCmdAndReply (s : BleState) (appCmd : UInt8) (data : List UInt8) (now : UInt32) :
    BleState × List Effect :=
  if appCmd = appCmdHandshakeRsp then
    if ¬ s.controler.handshakeOk then (s, [.led .redSlowBlink])
    else
      let result := byteAt data 2 ^^^ byteAt data 3 ^^^ byteAt data 4 ^^^ byteAt data 5
      (s, [.notify [0xAA, 0x01, result, 0x55] 4])
  else if appCmd = appCmdQueryUnlockRsp then
    if ¬ s.controler.handshakeOk then (s, [replyAppStatus appCmdQueryUnlockRsp 0x02])
    else bleSendProtocolCmd s .unlockStatusRsp now
  else if appCmd = appCmdUnlockRsp then
    if s.controler.activeOk then (s, [.notify [0xAA, 0x02, 0x02, 0x55] 4])
    else bleSendProtocolCmd s .unlockRsp now
  else if appCmd = appCmdLockRsp then bleSendProtocolCmd s .lockRsp now
  else if appCmd = appCmdFaultQueryRsp then bleSendProtocolCmd s .faultQueryRsp now
  else (s, [])

/-! ### Replies -/

/-- The part of `Handle_mcu_replydata` that clears the waiting flag of a reply in time. -/
def clearWaiting (s : BleState) (cmdType : Option BleCmd) (now : UInt32) : BleState :=
  match cmdType with
  | none => s
  | some c =>
    if (s.cmdWait c).waiting ∧ now - (s.cmdWait c).sendTimeMs ≤ 2000 then
      { s with cmdWait := Function.update s.cmdWait c { s.cmdWait c with waiting := false } }
    else s

/-- The part of `Handle_mcu_replydata` that decodes the reply `b0 b1`. Where no branch returns, the
LED is set after the branches. -/
def decodeReply (s : BleState) (cmdType : Option BleCmd) (b0 b1 : UInt8) : BleState × List Effect :=
  match cmdType with
  | some .handshakeRsp =>
    if b0 = 0x5A ∧ b1 = 0xA5 then
      ({ s with controler := { s.controler with handshakeOk := true }, handshakeRetryCount := 0 },
        [.led .greenOn])
    else (s, [.led .redFastBlink])
  | some .unlockStatusRsp =>
    if b0 = 0x69 ∧ b1 = 0x96 then
      ({ s with controler := { s.controler with activeOk := true } },
        [replyAppStatus appCmdQueryUnlockRsp 0x00])
    else if b0 = 0x96 ∧ b1 = 0x69 then
      ({ s with controler := { s.controler with activeOk := false } },
        [replyAppStatus appCmdQueryUnlockRsp 0x01])
    else (s, [.led .greenOn, .led .greenOn])
  | some .unlockRsp =>
    if b0 = 0x5A ∧ b1 = 0xA5 then (s, [replyAppStatus appCmdUnlockRsp 0x00])
    else (s, [.led .greenOn])
  | some .lockRsp =>
    if b0 = 0x5A ∧ b1 = 0xA5 then (s, [replyAppStatus appCmdLockRsp 0x00])
    else (s, [.led .greenOn])
  | some .faultQueryRsp =>
    (s, .notify [0xAA, appCmdFaultQueryRsp, b0, b1, 0x55] 5 ::
      if ¬ (b0 = 0x00 ∧ b1 = 0x00) then [.led .redOn] else [])
  | none => (s, [.led .greenOn])

/-- `Handle_mcu_replydata`. -/
def handleMcuReplydata (s : BleState) (data : List UInt8) (cmdType : Option BleCmd) (now : UInt32) :
    BleState × List Effect :=
  if mcuMaxLen < data.length then (s, [])
  else
    match data with
    | [b0, b1] => decodeReply (clearWaiting s cmdType now) cmdType b0 b1
    | _ => (s, [.led .greenOn])

/-- `Handle_protocol_data`. -/
def handleProtocolData (s : BleState) (data : List UInt8) (now : UInt32) : BleState × List Effect :=
  if data.length = 0 ∨ mcuMaxLen < data.length then (s, [])
  else handleMcuReplydata s data s.controler.lastCmdType now

/-! ### Timeouts -/

/-- The outcome the app gets for a command without a reply; a fault query is answered with no
fault. -/
def timeoutOutcome : BleCmd → List Effect
  | .handshakeRsp => []
  | .unlockStatusRsp => [replyAppStatus appCmdQueryUnlockRsp 0x01]
  | .unlockRsp => [replyAppStatus appCmdUnlockRsp 0x01]
  | .lockRsp => [replyAppStatus appCmdLockRsp 0x01]
  | .faultQueryRsp => [.notify [0xAA, appCmdFaultQueryRsp, 0x00, 0x00, 0x55] 5, .led .greenOn]

/-- The loop of `check_timeout_timer_cb` over the commands `1` to `4`. -/
def checkTimeouts (now : UInt32) : List BleCmd → BleState → BleState × List Effect
  | [], s => (s, [])
  | c :: cs, s =>
    if (s.cmdWait c).waiting ∧ 2000 < now - (s.cmdWait c).sendTimeMs then
      let r := checkTimeouts now cs { s with
        cmdWait := Function.update s.cmdWait c
          { s.cmdWait c with waiting := false, timeoutState := true } }
      (r.1, timeoutOutcome c ++ r.2)
    else checkTimeouts now cs s

/-- `check_timeout_timer_cb`. -/
def checkTimeoutTimerCb (s : BleState) (now : UInt32) : BleState × List Effect :=
  let v := v3TimeoutCheck s.v3 now
  let r := checkTimeouts now [.unlockStatusRsp, .unlockRsp, .lockRsp, .faultQueryRsp]
    { s with v3 := v.1 }
  (r.1, v.2 ++ r.2)

/-! ### Events -/

/-- The commands of the app that are forwarded to the controller. -/
inductive AppCmd
  | queryUnlock | unlock | lock | faultQuery
  deriving DecidableEq, Repr

/-- The command byte of the app. -/
def AppCmd.code : AppCmd → UInt8
  | .queryUnlock => appCmdQueryUnlockRsp
  | .unlock => appCmdUnlockRsp
  | .lock => appCmdLockRsp
  | .faultQuery => appCmdFaultQueryRsp

/-- The command that is sent for it. -/
def AppCmd.cmd : AppCmd → BleCmd
  | .queryUnlock => .unlockStatusRsp
  | .unlock => .unlockRsp
  | .lock => .lockRsp
  | .faultQuery => .faultQueryRsp

/-- What reaches the bridge after the handshake: a command of the app, a reply of two bytes, a round
of the timer; with the uptime in milliseconds. -/
inductive V2Event
  | app (a : AppCmd) (now : UInt32)
  | reply (b0 b1 : UInt8) (now : UInt32)
  | tick (now : UInt32)
  deriving DecidableEq, Repr

/-- The bridge as a machine. -/
def v2Step (s : BleState) : V2Event → BleState × List Effect
  | .app a now => handleAppCmdAndReply s a.code [0x55, a.code, 0xAA] now
  | .reply b0 b1 now => handleProtocolData s [b0, b1] now
  | .tick now => checkTimeoutTimerCb s now

end BleHidUart.V2.Bridge
