import BleHidUart.Firmware.Main

/-!
# What goes out on the UART

One line carries the frames of the upload, the commands of the bridge, the requests of the app and
the answer with the Bluetooth address. `sends_call` says for each call what it may put there.
`traffic_phases`: the upload and the bridge never talk at the same time, and the bridge that the
timers find is the one of power-on.
-/

namespace BleHidUart.Firmware.Traffic

open BleHidUart.Board BleHidUart.CtrlOta.Machine BleHidUart.CtrlOta.Metadata
open BleHidUart.CtrlOta.Moves BleHidUart.Firmware.Calls BleHidUart.Firmware.Channel
open BleHidUart.Firmware.Dispatch BleHidUart.Firmware.Machine BleHidUart.Firmware.Main
open BleHidUart.Lib.Run BleHidUart.Lib.Word BleHidUart.Ota.Handlers BleHidUart.Uart.Receiver
open BleHidUart.V2.Bridge BleHidUart.V2.Moves BleHidUart.V3.Bridge BleHidUart.V3.Handlers
open BleHidUart.V3.Parser

/-! ### What goes out on the UART -/

/-- A request or a data frame of the upload. -/
def IsUpload (d : List UInt8) : Prop :=
  d.take 6 = ctrlOtaHeader ∧ (byteAt d 7 = ctrlCmdWriteReq ∨ byteAt d 7 = ctrlCmdData)

/-- A request of the app, passed on. -/
def IsForwarded (d : List UInt8) : Prop := byteAt d 0 = v3FrameHead0 ∧ d.length ≤ v3FrameSizeNormal

/-- A command of the bridge. -/
def IsCommand (d : List UInt8) : Prop := ∃ c, d = cmdBytes c

/-- What a call puts on the UART, and when. -/
inductive Sends (addr : List UInt8) (f : FirmwareState) : Call → List UInt8 → Prop
  | upload (now : UInt32) {d : List UInt8} : IsUpload d → Sends addr f (.mainLoop now) d
  | forwarded (c : Call) {d : List UInt8} : IsForwarded d → Sends addr f c d
  | address (c : Call) : Sends addr f c (0xAA :: addr.reverse ++ [0x55])
  | handshake (now : UInt32) : Sends addr f (.handshakeTick now) handshakeCmd
  | command (c : Call) (b : BleCmd) : f.bridge.ble.controler.handshakeOk = true →
    Sends addr f c (cmdBytes b)

theorem uartWrites_writeFlag (flag : UInt8) : uartWrites (writeFlag flag) = [] :=
  uartWrites_eepromWrite _ _

theorem uartWrites_otaReject (c : OtaContext) (seq : UInt16) :
    uartWrites (otaRejectPacket c seq).2 = [] := by
  simp only [otaRejectPacket]
  split_ifs <;> rfl

theorem uartWrites_otaStore (c : OtaContext) (content : List UInt8) (n : UInt16) :
    uartWrites (otaStorePacket c content n).2 = [] := by
  simp only [otaStorePacket]
  split_ifs
  · exact uartWrites_eepromWrite _ _
  · rfl

theorem uartWrites_otaLast (c : OtaContext) (seq : UInt16) :
    uartWrites (otaLastPacket c seq).2 = [] := by
  simp only [otaLastPacket]
  split_ifs
  · exact uartWrites_eepromWrite _ _
  · rfl

theorem uartWrites_ota (c : OtaContext) (frame : List UInt8) (n : UInt16) :
    uartWrites (otaHandleStartRequest c frame).2 = [] ∧
      uartWrites (otaHandleDataPacket c frame n).2 = [] ∧
      uartWrites (otaPackageRetry c frame).2 = [] ∧ uartWrites (otaEraseRetry c frame).2 = [] := by
  refine ⟨?_, ?_, ?_, ?_⟩
  · simp only [otaHandleStartRequest, eepromErase_eq, List.append_nil]
    split_ifs <;> simp only [uartWrites_append, uartWrites_writeFlag] <;> rfl
  · simp only [otaHandleDataPacket]
    split_ifs <;> simp only [uartWrites_append, uartWrites_otaStore, uartWrites_otaLast,
      uartWrites_otaReject] <;> rfl
  · simp only [otaPackageRetry, eepromErase_eq, List.nil_append]
    split_ifs <;> rfl
  · simp only [otaEraseRetry]
    split_ifs <;> rfl

theorem isUpload_ctrl (g : CtrlOtaCtx) (e : Eeprom) (i : CtrlEvent) :
    ∀ d ∈ uartWrites (ctrlHandle g e i).2, IsUpload d ∧ ∃ now, i = .tick now := by
  have hmove := ctrlHandle_move g e i
  generalize (ctrlHandle g e i).1 = g', (ctrlHandle g e i).2 = fx at hmove ⊢
  intro d hd
  cases hmove with
  | request now =>
    obtain rfl := List.mem_singleton.mp hd
    exact ⟨⟨rfl, .inl rfl⟩, now, rfl⟩
  | send now =>
    obtain rfl := List.mem_singleton.mp hd
    exact ⟨⟨rfl, .inr rfl⟩, now, rfl⟩
  | success now =>
    rw [show ctrlOtaNotifyResult ctrlOtaResultOk = .notify _ _ from rfl, uartWrites_notify,
      uartWrites_writeFlag] at hd
    cases hd
  | stay | failed | finish | timeout | restart | confirm | erased | ackLast | ackMore | crcFail
  | refused => cases hd

section Call
variable (addr : List UInt8) (f : FirmwareState)

theorem sends_bleSend {c : Call} {b : BleCmd} (hb : b ≠ .handshakeRsp) (now : UInt32) :
    ∀ d ∈ uartWrites (bleSendProtocolCmd f.bridge.ble b now).2, Sends addr f c d := by
  unfold bleSendProtocolCmd
  split_ifs with hno
  · exact fun d hd => absurd hd List.not_mem_nil
  · intro d hd
    obtain rfl := List.mem_singleton.mp hd
    refine .command c b ?_
    by_contra hok
    exact hno ⟨hb, hok⟩

theorem sends_appCmd (c : Call) (appCmd : UInt8) (frame : List UInt8) (now : UInt32) :
    ∀ d ∈ uartWrites (handleAppCmdAndReply f.bridge.ble appCmd frame now).2, Sends addr f c d := by
  simp only [handleAppCmdAndReply]
  split_ifs
  all_goals first
    | exact fun d hd => absurd hd List.not_mem_nil
    | exact sends_bleSend addr f (by decide) now

theorem sends_parsed {k : HandlerCall} (hk : Headed k) (now : UInt32) :
    ∀ d ∈ uartWrites (callHandler f.bridge k now).2, Sends addr f (.parsed k now) d := by
  have hnone : ∀ {fx : List Effect}, uartWrites fx = [] → ∀ d ∈ uartWrites fx,
      Sends addr f (.parsed k now) d := fun h d hd => by rw [h] at hd; cases hd
  cases k with
  | appCmd appCmd frame => exact sends_appCmd addr f _ appCmd frame now
  | handshake frame =>
    refine hnone ?_
    simp only [callHandler, v3HandleHandshake]
    split_ifs <;> rfl
  | readWrite frame cmd =>
    intro d hd
    simp only [callHandler, Bridge.setV3, v3HandleReadWrite] at hd
    split_ifs at hd
    · obtain rfl := List.mem_singleton.mp hd
      refine .forwarded _ ⟨?_, by rw [List.length_take]; exact min_le_left _ _⟩
      rw [byteAt_take (by decide)]
      exact hk
    · cases hd
  | mcuReply frame cmd =>
    refine hnone ?_
    simp only [callHandler, Bridge.setV3, v3HandleMcuReply]
    split_ifs <;> rfl
  | otaStart frame => exact hnone (uartWrites_ota f.bridge.ota frame 0).1
  | otaData frame n => exact hnone (uartWrites_ota f.bridge.ota frame n).2.1
  | packageRetry frame => exact hnone (uartWrites_ota f.bridge.ota frame 0).2.2.1
  | eraseRetry frame => exact hnone (uartWrites_ota f.bridge.ota frame 0).2.2.2

/-- A call of the event `x`; a request that the parser hands on starts with `53`. -/
def CallOf (x : FirmwareEvent) : Call → Prop
  | .parsed k _ => Headed k
  | .ctrlReply _ _ | .protocolData _ _ | .ucCmd _ | .receiver _ => True
  | .handshakeTick now => x = .handshakeTick now
  | .timeoutTick now => x = .timeoutTick now
  | .mainLoop now => x = .mainLoop now

theorem callOf_parsed (x : FirmwareEvent) (clock : ℕ → UInt32) {ks : List HandlerCall}
    (h : ∀ k ∈ ks, Headed k) : ∀ c ∈ parsedCalls clock ks, CallOf x c := by
  intro c hc
  obtain ⟨k, hk, now, rfl⟩ := mem_parsedCalls hc
  exact h k hk

theorem callOf_event (x : FirmwareEvent) : ∀ c ∈ callsOfEvent f x, CallOf x c := by
  cases x with
  | appData data clock => exact callOf_parsed _ clock (headed_app data _)
  | uart event clock =>
    have hrx : ∀ (cs : List RxCall) (clock' : ℕ → UInt32), ∀ c ∈ callsOfRxs clock' cs,
        CallOf (.uart event clock) c := by
      intro cs
      induction cs with
      | nil => exact fun _ c hc => absurd hc List.not_mem_nil
      | cons k cs ih =>
        intro clock' c hc
        rcases List.mem_append.mp hc with hc | hc
        · cases k with
          | mcuData data => exact callOf_parsed _ clock' (headed_mcu data _) c hc
          | ctrlReply | protocolData | ucCmd =>
            obtain rfl := List.mem_singleton.mp hc
            trivial
        · exact ih _ c hc
    intro c hc
    rcases List.mem_cons.mp hc with rfl | hc
    · trivial
    · exact hrx _ clock c hc
  | handshakeTick | timeoutTick | mainLoop =>
    intro c hc
    obtain rfl := List.mem_singleton.mp hc
    rfl

theorem uartWrites_timeouts (now : UInt32) :
    ∀ (cs : List BleCmd) (s : BleState), uartWrites (checkTimeouts now cs s).2 = []
  | [], _ => rfl
  | c :: cs, s => by
    have hone : uartWrites (timeoutOutcome c) = [] := by cases c <;> rfl
    simp only [checkTimeouts]
    split_ifs
    · rw [uartWrites_append, hone]
      exact uartWrites_timeouts now cs _
    · exact uartWrites_timeouts now cs s

theorem uartWrites_protocol (s : BleState) (data : List UInt8) (now : UInt32) :
    uartWrites (handleProtocolData s data now).2 = [] := by
  have hdecode : ∀ (s : BleState) (t : Option BleCmd) (b0 b1 : UInt8),
      uartWrites (decodeReply s t b0 b1).2 = [] := by
    intro s t b0 b1
    rcases t with _ | c
    · rfl
    · cases c <;> simp only [decodeReply] <;> split_ifs <;> rfl
  simp only [handleProtocolData, handleMcuReplydata]
  split_ifs
  · rfl
  · rfl
  · split
    · exact hdecode _ _ _ _
    · rfl

/-- **What a call puts on the UART.** -/
theorem sends_call {x : FirmwareEvent} {c : Call} (hc : CallOf x c) :
    ∀ d ∈ uartWrites (singleStep addr f c).2, Sends addr f c d := by
  have hnone : ∀ {fx : List Effect}, uartWrites fx = [] → ∀ d ∈ uartWrites fx, Sends addr f c d :=
    fun h d hd => by rw [h] at hd; cases hd
  cases c with
  | parsed k now => exact sends_parsed addr f hc now
  | ctrlReply cmd now =>
    intro d hd
    obtain ⟨-, _, hi⟩ := isUpload_ctrl f.ctrl f.bridge.ee (.reply cmd now) d hd
    cases hi
  | protocolData data now => exact hnone (uartWrites_protocol f.bridge.ble data now)
  | ucCmd data =>
    intro d hd
    simp only [singleStep, rxCall, handleUcUartCmd] at hd
    split_ifs at hd
    · obtain rfl := List.mem_singleton.mp hd
      exact .address _
    · cases hd
  | receiver => exact hnone rfl
  | handshakeTick now =>
    intro d hd
    have hsend : bleSendProtocolCmd f.bridge.ble .handshakeRsp now =
        (sent f.bridge.ble .handshakeRsp now, [.uart handshakeCmd]) := if_neg fun h => h.1 rfl
    simp only [singleStep, firmwareStep, handshakeTimerCb, hsend] at hd
    split_ifs at hd
    · cases hd
    · obtain rfl := List.mem_singleton.mp hd
      exact .handshake now
    · cases hd
    · cases hd
  | timeoutTick now =>
    refine hnone ?_
    show uartWrites ((v3TimeoutCheck f.bridge.ble.v3 now).2 ++ _) = []
    rw [uartWrites_append, uartWrites_timeouts, List.append_nil]
    unfold v3TimeoutCheck
    split_ifs <;> rfl
  | mainLoop now =>
    intro d hd
    exact .upload now (isUpload_ctrl f.ctrl f.bridge.ee (.tick now) d hd).1

end Call

/-! ### The bridge before the timers -/

/-- The bridge as at power-on, but for the request of the app it waits for. -/
def Fresh (s : BleState) : Prop := s = { v3 := s.v3 }

theorem Fresh.setV3 {s : BleState} (h : Fresh s) (v : V3BridgeState) :
    Fresh { s with v3 := v } := by
  unfold Fresh
  rw [h]

theorem Fresh.of_eq {s s' : BleState} (h : Fresh s) (heq : s' = s) : Fresh s' := by rwa [heq]

theorem Fresh.handshakeOk {s : BleState} (h : Fresh s) : s.controler.handshakeOk = false := by
  rw [h]

theorem Fresh.appCmd {s : BleState} (h : Fresh s) (appCmd : UInt8) (frame : List UInt8)
    (now : UInt32) : (handleAppCmdAndReply s appCmd frame now).1 = s := by
  have hsend : ∀ c, c ≠ .handshakeRsp → (bleSendProtocolCmd s c now).1 = s := fun c hc => by
    rw [bleSendProtocolCmd, if_pos ⟨hc, by rw [h.handshakeOk]; exact Bool.false_ne_true⟩]
  simp only [handleAppCmdAndReply]
  split_ifs
  all_goals first
    | rfl
    | exact hsend _ (by decide)

theorem Fresh.protocol {s : BleState} (h : Fresh s) (data : List UInt8) (now : UInt32) :
    (handleProtocolData s data now).1 = s := by
  have hlast : s.controler.lastCmdType = none := by rw [h]
  simp only [handleProtocolData, handleMcuReplydata, hlast]
  split_ifs
  · rfl
  · rfl
  · split <;> rfl

theorem Fresh.timeouts {s : BleState} (h : Fresh s) (now : UInt32) :
    ∀ cs : List BleCmd, (checkTimeouts now cs s).1 = s
  | [] => rfl
  | c :: cs => by
    have hno : ¬ ((s.cmdWait c).waiting ∧ 2000 < now - (s.cmdWait c).sendTimeMs) := fun hw => by
      rw [h] at hw
      exact Bool.false_ne_true hw.1
    rw [checkTimeouts, if_neg hno]
    exact h.timeouts now cs

/-- Only a round of the handshake timer leaves a trace in it. -/
theorem Fresh.call (addr : List UInt8) {f : FirmwareState} {x : FirmwareEvent} {c : Call}
    (hc : CallOf x c) (hx : ∀ now, x ≠ .handshakeTick now) (h : Fresh f.bridge.ble) :
    Fresh (singleStep addr f c).1.bridge.ble := by
  cases c with
  | parsed k now =>
    cases k with
    | appCmd appCmd frame => exact h.of_eq (h.appCmd appCmd frame now)
    | handshake | otaStart | otaData | packageRetry | eraseRetry => exact h
    | readWrite | mcuReply => exact h.setV3 _
  | protocolData data now => exact h.of_eq (h.protocol data now)
  | timeoutTick now => exact (h.setV3 _).of_eq ((h.setV3 _).timeouts now _)
  | handshakeTick now => exact absurd hc (hx now)
  | ctrlReply | ucCmd | receiver | mainLoop => exact h

/-- What the UART carries before the timers, and after the loop. -/
def EarlyTraffic (addr d : List UInt8) : Prop :=
  IsUpload d ∨ IsForwarded d ∨ d = 0xAA :: addr.reverse ++ [0x55]

def LateTraffic (addr d : List UInt8) : Prop :=
  IsCommand d ∨ IsForwarded d ∨ d = 0xAA :: addr.reverse ++ [0x55]

theorem EarlyTraffic.not_command {addr d : List UInt8} (h : EarlyTraffic addr d) :
    ¬ IsCommand d := by
  rintro ⟨c, rfl⟩
  have hhead : byteAt (cmdBytes c) 0 = 0x5A := by cases c <;> rfl
  have htake : byteAt ((cmdBytes c).take 6) 0 = 0x5A := by rw [byteAt_take (by decide), hhead]
  rcases h with h | h | h
  · rw [h.1] at htake
    exact absurd htake (by decide)
  · exact absurd (hhead.symm.trans h.1) (by decide)
  · rw [h] at hhead
    exact absurd (show (0xAA : UInt8) = 0x5A from hhead) (by decide)

theorem LateTraffic.not_upload {addr d : List UInt8} (h : LateTraffic addr d) : ¬ IsUpload d := by
  rintro ⟨htake, -⟩
  have hhead : byteAt d 0 = 0xEB := by
    rw [← byteAt_take (n := 6) (by decide), htake]
    rfl
  rcases h with ⟨c, rfl⟩ | h | rfl
  · cases c <;> exact absurd hhead (by decide)
  · exact absurd (hhead.symm.trans h.1) (by decide)
  · exact absurd (show (0xAA : UInt8) = 0xEB from hhead) (by decide)

section Steps
variable {addr : List UInt8} {f : FirmwareState} {x : FirmwareEvent}

theorem Fresh.calls (hx : ∀ now, x ≠ .handshakeTick now) {cs : List Call}
    (hcs : ∀ c ∈ cs, CallOf x c) (h : Fresh f.bridge.ble) :
    Fresh (final (singleStep addr) f cs).bridge.ble ∧
      ∀ d ∈ uartWrites (outs (singleStep addr) f cs), EarlyTraffic addr d := by
  induction cs generalizing f with
  | nil => exact ⟨h, fun d hd => absurd hd List.not_mem_nil⟩
  | cons c cs ih =>
    obtain ⟨hc, hcs⟩ := List.forall_mem_cons.mp hcs
    obtain ⟨hfresh, hrest⟩ := ih hcs (h.call addr hc hx)
    refine ⟨hfresh, fun d hd => ?_⟩
    rw [outs_cons, uartWrites_append, List.mem_append] at hd
    rcases hd with hd | hd
    · cases sends_call addr f hc d hd with
      | upload now hup => exact .inl hup
      | forwarded _ hfwd => exact .inr (.inl hfwd)
      | address => exact .inr (.inr rfl)
      | handshake now => exact absurd hc (hx now)
      | command _ b hok => exact absurd (h.handshakeOk.symm.trans hok) Bool.false_ne_true
    · exact hrest d hd

theorem Fresh.step (hx : ∀ now, x ≠ .handshakeTick now) (h : Fresh f.bridge.ble) :
    Fresh (firmwareStep addr f x).1.bridge.ble ∧
      ∀ d ∈ uartWrites (firmwareStep addr f x).2, EarlyTraffic addr d := by
  rw [firmwareStep_eq]
  exact h.calls hx (callOf_event f x)

theorem late_calls (hx : ∀ now, x ≠ .mainLoop now) {cs : List Call} (hcs : ∀ c ∈ cs, CallOf x c) :
    ∀ d ∈ uartWrites (outs (singleStep addr) f cs), LateTraffic addr d := by
  induction cs generalizing f with
  | nil => exact fun d hd => absurd hd List.not_mem_nil
  | cons c cs ih =>
    obtain ⟨hc, hcs⟩ := List.forall_mem_cons.mp hcs
    intro d hd
    rw [outs_cons, uartWrites_append, List.mem_append] at hd
    rcases hd with hd | hd
    · cases sends_call addr f hc d hd with
      | upload now => exact absurd hc (hx now)
      | forwarded _ hfwd => exact .inr (.inl hfwd)
      | address => exact .inr (.inr rfl)
      | handshake now => exact .inl ⟨.handshakeRsp, rfl⟩
      | command _ b => exact .inl ⟨b, rfl⟩
    · exact ih hcs d hd

theorem late_step (hx : ∀ now, x ≠ .mainLoop now) :
    ∀ d ∈ uartWrites (firmwareStep addr f x).2, LateTraffic addr d := by
  rw [firmwareStep_eq]
  exact late_calls hx (callOf_event f x)

end Steps

/-! ### The phases of a run -/

section Run
variable {addr : List UInt8} {e : Eeprom}

theorem fresh_step {m : MainState} (y : MainEvent)
    (hfresh : m.phase ≠ .timers → Fresh m.firmware.bridge.ble)
    (hnext : (mainStep addr m y).1.phase ≠ .timers) : m.phase ≠ .timers ∧
      Fresh (mainStep addr m y).1.firmware.bridge.ble ∧
      ∀ d ∈ uartWrites (mainStep addr m y).2, EarlyTraffic addr d := by
  have hmove := mainStep_move addr m y
  generalize (mainStep addr m y).1 = m', (mainStep addr m y).2 = fx at hmove hnext ⊢
  have hnone : ∀ d ∈ uartWrites [], EarlyTraffic addr d := fun d hd => absurd hd List.not_mem_nil
  cases hmove with
  | handle x hx =>
    have hp : m.phase ≠ .timers := hnext
    exact ⟨hp, Fresh.step (fun now heq => by subst heq; exact hp hx) (hfresh hp)⟩
  | leave now hp =>
    have hne : m.phase ≠ .timers := by rw [hp]; decide
    exact ⟨hne, hfresh hne, hnone⟩
  | wake => exact absurd rfl hnext
  | missed | awake => exact ⟨hnext, hfresh hnext, hnone⟩

theorem late_main {m : MainState} (y : MainEvent) (hp : m.phase ≠ .otaLoop) :
    (mainStep addr m y).1.phase ≠ .otaLoop ∧
      ∀ d ∈ uartWrites (mainStep addr m y).2, LateTraffic addr d := by
  have hmove := mainStep_move addr m y
  generalize (mainStep addr m y).1 = m', (mainStep addr m y).2 = fx at hmove ⊢
  have hnone : ∀ d ∈ uartWrites [], LateTraffic addr d := fun d hd => absurd hd List.not_mem_nil
  cases hmove with
  | handle x hx => exact ⟨hp, late_step fun now heq => by subst heq; exact hp hx.1⟩
  | leave now hloop => exact absurd hloop hp
  | wake => exact ⟨fun h => (nomatch h), hnone⟩
  | missed | awake => exact ⟨hp, hnone⟩

theorem late_run {m : MainState} (hp : m.phase ≠ .otaLoop) (zs : List MainEvent) :
    ∀ d ∈ uartWrites (outs (mainStep addr) m zs), LateTraffic addr d := by
  induction zs generalizing m with
  | nil => exact fun d hd => absurd hd List.not_mem_nil
  | cons z zs ih =>
    intro d hd
    rw [outs_cons, uartWrites_append, List.mem_append] at hd
    obtain ⟨hnext, hout⟩ := late_main z hp
    exact hd.elim (hout d) (ih hnext d)

variable (addr e)

/-- **The traffic of a power cycle.** -/
structure TrafficPhases (ys : List MainEvent) : Prop where
  /-- Before the timers are started the bridge has sent no command, and keeps no trace of one. -/
  early : (after addr e ys).phase ≠ .timers → Fresh (after addr e ys).firmware.bridge.ble ∧
    ∀ d ∈ uartWrites (outs (mainStep addr) (boot e) ys), EarlyTraffic addr d ∧ ¬ IsCommand d
  /-- Once the loop is left, no frame of the upload follows. -/
  late : (after addr e ys).phase ≠ .otaLoop → ∀ zs,
    ∀ d ∈ uartWrites (outs (mainStep addr) (after addr e ys) zs), LateTraffic addr d ∧ ¬ IsUpload d

/-- **The upload and the bridge never talk at the same time.** -/
theorem traffic_phases (ys : List MainEvent) : TrafficPhases addr e ys where
  early := by
    induction ys using List.reverseRecOn with
    | nil => exact fun _ => ⟨rfl, fun d hd => absurd hd List.not_mem_nil⟩
    | append_singleton ys y ih =>
      intro hp
      have hafter : after addr e (ys ++ [y]) = (mainStep addr (after addr e ys) y).1 :=
        final_append _ _ _ _
      rw [hafter] at hp ⊢
      obtain ⟨hbefore, hfresh, hout⟩ := fresh_step y (fun h => (ih h).1) hp
      refine ⟨hfresh, fun d hd => ?_⟩
      rw [outs_append, outs_cons, outs_nil, List.append_nil, uartWrites_append,
        List.mem_append] at hd
      refine hd.elim ((ih hbefore).2 d) fun hd => ?_
      exact ⟨hout d hd, (hout d hd).not_command⟩
  late := fun hp zs d hd => ⟨late_run hp zs d hd, (late_run hp zs d hd).not_upload⟩

end Run

end BleHidUart.Firmware.Traffic
