import BleHidUart.CtrlOta.Machine
import BleHidUart.Firmware.Dispatch
import BleHidUart.V2.Moves

/-!
# The firmware as one machine

All entry points work on one state: writes of the app, events of the UART, the two timers and the
main loop. A handler runs to its end before the next one. A call reads the uptime when it is made:
`clock i` for the call number `i` of an event.

`main` starts the timers when the main loop has come to its end; no round of the handshake timer
comes before.
-/

namespace BleHidUart.Firmware.Machine

open BleHidUart.Board BleHidUart.CtrlOta.Machine BleHidUart.Firmware.Dispatch BleHidUart.Lib.Word
open BleHidUart.Uart.Receiver BleHidUart.V2.Bridge BleHidUart.V2.Moves BleHidUart.V3.Parser

def handshakeMaxRetry : ℕ := 50

/-- The state of the firmware; `handshakeTimer` is cleared by `k_timer_stop`. -/
structure FirmwareState where
  bridge : Bridge
  ctrl : CtrlOtaCtx
  rx : RxState := {}
  handshakeTimer : Bool := true

/-- The firmware after power-on. -/
def powerOn (e : Eeprom) : FirmwareState := { bridge := { ee := e }, ctrl := ctrlOtaInit e }

/-- What reaches the firmware. -/
inductive FirmwareEvent
  | appData (data : List UInt8) (clock : ℕ → UInt32)
  | uart (event : UartEvent) (clock : ℕ → UInt32)
  | handshakeTick (now : UInt32)
  | timeoutTick (now : UInt32)
  | mainLoop (now : UInt32)

/-- `handle_UC_uart_cmd`, with the Bluetooth address from `bt_id_get`. -/
def handleUcUartCmd (addr data : List UInt8) : List Effect :=
  if data.length = 3 ∧ byteAt data 0 = 0xAA ∧ byteAt data 1 = 0x10 ∧ byteAt data 2 = 0x55 then
    [.uart (0xAA :: addr.reverse ++ [0x55])]
  else []

/-- `handshake_timer_cb`, while the timer runs. -/
def handshakeTimerCb (f : FirmwareState) (now : UInt32) : FirmwareState × List Effect :=
  let s := f.bridge.ble
  if ¬ s.controler.handshakeOk then
    if s.handshakeRetryCount < handshakeMaxRetry then
      let r := bleSendProtocolCmd s .handshakeRsp now
      let s := { r.1 with handshakeRetryCount := r.1.handshakeRetryCount + 1 }
      ({ f with bridge := { f.bridge with ble := s } }, r.2)
    else ({ f with handshakeTimer := false }, [.led .redFastBlink])
  else ({ f with handshakeTimer := false }, [])

section Uart
variable (addr : List UInt8)

/-- A call of the receiver. -/
def rxCall (f : FirmwareState) (clock : ℕ → UInt32) : RxCall → FirmwareState × List Effect
  | .ctrlReply cmd =>
    let r := ctrlOtaHandleReply f.ctrl cmd (clock 0)
    ({ f with ctrl := r.1, bridge := { f.bridge with ee := applyEffects f.bridge.ee r.2 } }, r.2)
  | .mcuData data =>
    let r := handleMcuData f.bridge clock data
    ({ f with bridge := r.1 }, r.2)
  | .protocolData data =>
    let r := handleProtocolData f.bridge.ble data (clock 0)
    ({ f with bridge := { f.bridge with ble := r.1 } }, r.2)
  | .ucCmd data => (f, handleUcUartCmd addr data)

/-- The calls for one event. -/
def rxCalls (f : FirmwareState) (clock : ℕ → UInt32) : List RxCall → FirmwareState × List Effect
  | [] => (f, [])
  | c :: cs =>
    let r := rxCall addr f clock c
    let t := rxCalls r.1 (fun i => clock (i + 1)) cs
    (t.1, r.2 ++ t.2)

/-- The calls among what the receiver does. -/
def callsOf (os : List RxOut) : List RxCall :=
  os.filterMap fun | .call c => some c | .store _ => none

/-- The firmware as a machine. -/
def firmwareStep (f : FirmwareState) : FirmwareEvent → FirmwareState × List Effect
  | .appData data clock =>
    let r := runCalls f.bridge clock (v3HandleAppData data (UInt16.ofNat data.length))
    ({ f with bridge := r.1 }, r.2)
  | .uart event clock =>
    let r := rxStep f.rx event
    rxCalls addr { f with rx := r.1 } clock (callsOf r.2)
  | .handshakeTick now => if f.handshakeTimer then handshakeTimerCb f now else (f, [])
  | .timeoutTick now =>
    let r := checkTimeoutTimerCb f.bridge.ble now
    ({ f with bridge := { f.bridge with ble := r.1 } }, r.2)
  | .mainLoop now =>
    let r := ctrlHandle f.ctrl f.bridge.ee (.tick now)
    ({ f with ctrl := r.1, bridge := { f.bridge with ee := applyEffects f.bridge.ee r.2 } }, r.2)

theorem handshakeTick_cases (f : FirmwareState) (now : UInt32) :
    (f.bridge.ble.controler.handshakeOk = false ∧
      f.bridge.ble.handshakeRetryCount < handshakeMaxRetry ∧
      firmwareStep addr f (.handshakeTick now) =
        ({ f with bridge := { f.bridge with ble := { sent f.bridge.ble .handshakeRsp now with
            handshakeRetryCount := f.bridge.ble.handshakeRetryCount + 1 } } },
            [.uart handshakeCmd])) ∨
    (firmwareStep addr f (.handshakeTick now)).1.bridge = f.bridge ∧
      sentCmds (firmwareStep addr f (.handshakeTick now)).2 = [] := by
  have hsend : bleSendProtocolCmd f.bridge.ble .handshakeRsp now =
      (sent f.bridge.ble .handshakeRsp now, [.uart handshakeCmd]) := if_neg fun h => h.1 rfl
  simp only [firmwareStep, handshakeTimerCb, hsend]
  split_ifs with _ hok hretry
  · exact .inr ⟨rfl, rfl⟩
  · exact .inl ⟨Bool.not_eq_true _ ▸ hok, hretry, rfl⟩
  · exact .inr ⟨rfl, rfl⟩
  · exact .inr ⟨rfl, rfl⟩

end Uart
end BleHidUart.Firmware.Machine
