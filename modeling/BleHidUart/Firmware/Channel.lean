import BleHidUart.CtrlOta.Moves
import BleHidUart.Firmware.Machine
import BleHidUart.V2.Moves

/-!
# The channel for the commands

Commands for the controller go through `BLE_send_protocol_cmd`, which lets nothing but the handshake
pass before `handshake_ok`; this flag is only set by a reply `5A A5` while the handshake is the last
command. What else goes to the controller (requests of the app, OTA frames, the Bluetooth address)
never looks like a command. `firmwareStep_channel`: every step of the firmware is one of the moves
of `ChannelMove`.
-/

namespace BleHidUart.Firmware.Channel

open BleHidUart.Board BleHidUart.CtrlOta.Machine BleHidUart.CtrlOta.Metadata
open BleHidUart.CtrlOta.Moves BleHidUart.Firmware.Dispatch BleHidUart.Firmware.Machine
open BleHidUart.Lib.Word BleHidUart.Ota.Handlers BleHidUart.Uart.Receiver BleHidUart.V2.Bridge
open BleHidUart.V2.Moves BleHidUart.V3.Bridge BleHidUart.V3.Deframe BleHidUart.V3.Handlers
open BleHidUart.V3.Parser

/-! ### What is no command -/

theorem commandOf_of_head {d : List UInt8} (h : byteAt d 0 ≠ 0x5A) : commandOf d = none := by
  have hhead : ∀ c, byteAt (cmdBytes c) 0 = 0x5A := fun c => by cases c <;> rfl
  refine List.find?_eq_none.mpr fun c _ heq => h ?_
  rw [← beq_iff_eq.mp heq]
  exact hhead c

theorem sentCmds_uart {d : List UInt8} (h : byteAt d 0 ≠ 0x5A) : sentCmds [.uart d] = [] := by
  simp only [sentCmds, List.filterMap_cons, List.filterMap_nil, commandOf_of_head h]

theorem sentCmds_eepromWrite (addr : UInt32) (bs : List UInt8) :
    sentCmds (eepromWrite addr bs) = [] := by
  refine List.filterMap_eq_nil_iff.mpr fun o ho => ?_
  obtain ⟨w, -, rfl⟩ := List.mem_map.mp ho
  rfl

theorem sentCmds_writeFlag (flag : UInt8) (fx : List Effect) :
    sentCmds (writeFlag flag ++ fx) = sentCmds fx := by
  rw [sentCmds_append, writeFlag, sentCmds_eepromWrite, List.nil_append]

theorem sentCmds_otaReject (c : OtaContext) (seq : UInt16) :
    sentCmds (otaRejectPacket c seq).2 = [] := by
  simp only [otaRejectPacket]
  split_ifs <;> rfl

theorem sentCmds_otaStore (c : OtaContext) (content : List UInt8) (n : UInt16) :
    sentCmds (otaStorePacket c content n).2 = [] := by
  simp only [otaStorePacket]
  split_ifs
  · exact sentCmds_eepromWrite _ _
  · rfl

theorem sentCmds_otaLast (c : OtaContext) (seq : UInt16) :
    sentCmds (otaLastPacket c seq).2 = [] := by
  simp only [otaLastPacket]
  split_ifs
  · exact sentCmds_eepromWrite _ _
  · rfl

theorem sentCmds_otaStart (c : OtaContext) (frame : List UInt8) :
    sentCmds (otaHandleStartRequest c frame).2 = [] := by
  simp only [otaHandleStartRequest, eepromErase_eq, List.append_nil, List.append_assoc]
  split_ifs
  · rfl
  · exact sentCmds_writeFlag 0 _
  · exact sentCmds_writeFlag 0 _
  · exact sentCmds_writeFlag 0 _

theorem sentCmds_otaData (c : OtaContext) (frame : List UInt8) (frameLen : UInt16) :
    sentCmds (otaHandleDataPacket c frame frameLen).2 = [] := by
  simp only [otaHandleDataPacket]
  split_ifs
  · rfl
  · rfl
  · exact sentCmds_otaReject _ _
  · exact sentCmds_otaReject _ _
  · simp only [sentCmds_append, sentCmds_otaStore, sentCmds_otaLast, List.append_nil]
  · simp only [sentCmds_append, sentCmds_otaStore, List.nil_append]
    rfl

theorem sentCmds_packageRetry (c : OtaContext) (frame : List UInt8) :
    sentCmds (otaPackageRetry c frame).2 = [] := by
  simp only [otaPackageRetry, eepromErase_eq, List.nil_append]
  split_ifs <;> rfl

theorem sentCmds_eraseRetry (c : OtaContext) (frame : List UInt8) :
    sentCmds (otaEraseRetry c frame).2 = [] := by
  simp only [otaEraseRetry]
  split_ifs <;> rfl

theorem sentCmds_ctrlMove {g g' : CtrlOtaCtx} {e : Eeprom} {i : CtrlEvent} {fx : List Effect}
    (h : CtrlMove g e i g' fx) : sentCmds fx = [] := by
  have hhead : (0xEB : UInt8) ≠ 0x5A := by decide
  cases h with
  | request | send => exact sentCmds_uart hhead
  | success => exact sentCmds_eepromWrite _ _
  | stay | failed | finish | timeout | restart | confirm | erased | ackLast | ackMore | crcFail
  | refused => rfl

theorem sentCmds_ctrl (g : CtrlOtaCtx) (e : Eeprom) (i : CtrlEvent) :
    sentCmds (ctrlHandle g e i).2 = [] := sentCmds_ctrlMove (ctrlHandle_move g e i)

theorem sentCmds_ucCmd (addr data : List UInt8) : sentCmds (handleUcUartCmd addr data) = [] := by
  have hhead : (0xAA : UInt8) ≠ 0x5A := by decide
  unfold handleUcUartCmd
  split_ifs
  · exact sentCmds_uart hhead
  · rfl

/-- A request of the app that is forwarded starts with `53`. -/
def Headed : HandlerCall → Prop
  | .readWrite frame _ => byteAt frame 0 = v3FrameHead0
  | _ => True

theorem headed_calls (data : List UInt8) (len : UInt16) (fromApp : Bool) :
    ∀ k ∈ v3ParseBuffer data len fromApp, Headed k := by
  refine forall_v3ParseLoop (fun _ _ => trivial) (fun offset n k _ ⟨hhead, _⟩ hpkt hk => ?_) _ _
  have hframe := frame_of_dispatch hk
  have hpos : 0 < n := lt_of_lt_of_le (by decide) (v3PktLen_ge hpkt)
  cases k with
  | readWrite frame cmd =>
    have hbyte : byteAt frame 0 = byteAt ((data.drop offset).take n) 0 :=
      congrArg (byteAt · 0) hframe
    show byteAt frame 0 = v3FrameHead0
    rw [hbyte, byteAt_take hpos, byteAt_drop, Nat.add_zero, hhead]
  | appCmd | handshake | mcuReply | otaStart | otaData | packageRetry | eraseRetry => trivial

theorem sentCmds_readWrite (s : V3BridgeState) {frame : List UInt8}
    (h : byteAt frame 0 = v3FrameHead0) (cmd : UInt8) (now : UInt32) :
    sentCmds (v3HandleReadWrite s frame cmd now).2 = [] := by
  simp only [v3HandleReadWrite]
  split_ifs
  · refine sentCmds_uart ?_
    rw [byteAt_take (by decide), h]
    decide
  · rfl

theorem sentCmds_mcuReply (s : V3BridgeState) (frame : List UInt8) (cmd : UInt8) :
    sentCmds (v3HandleMcuReply s frame cmd).2 = [] := by
  simp only [v3HandleMcuReply]
  split_ifs <;> rfl

theorem sentCmds_handshake (e : Eeprom) (frame : List UInt8) :
    sentCmds (v3HandleHandshake e frame) = [] := by
  simp only [v3HandleHandshake]
  split_ifs <;> rfl

/-! ### What a step can do to the channel -/

/-- The step sends the commands `cmds` and does not touch the handshake. -/
structure Relays (s : BleState) (cmds : List BleCmd) (s' : BleState) : Prop where
  ok : s'.controler.handshakeOk = s.controler.handshakeOk
  retries : s'.handshakeRetryCount = s.handshakeRetryCount
  last : s'.controler.lastCmdType = cmds.getLast?.or s.controler.lastCmdType
  gated : ∀ c ∈ cmds, s.controler.handshakeOk = true ∧ c ≠ .handshakeRsp

theorem Relays.append {s t u : BleState} {xs ys : List BleCmd} (h : Relays s xs t)
    (h' : Relays t ys u) : Relays s (xs ++ ys) u where
  ok := h'.ok.trans h.ok
  retries := h'.retries.trans h.retries
  last := by rw [h'.last, h.last, List.getLast?_append, Option.or_assoc]
  gated := by
    intro c hc
    rcases List.mem_append.mp hc with hc | hc
    · exact h.gated c hc
    · rw [← h.ok]
      exact h'.gated c hc

theorem relays_quiet {s s' : BleState} {fx : List Effect} (hfx : sentCmds fx = [])
    (hok : s'.controler.handshakeOk = s.controler.handshakeOk)
    (hlast : s'.controler.lastCmdType = s.controler.lastCmdType)
    (hretries : s'.handshakeRetryCount = s.handshakeRetryCount) : Relays s (sentCmds fx) s' := by
  rw [hfx]
  exact ⟨hok, hretries, hlast, fun c h => absurd h List.not_mem_nil⟩

theorem relays_send (s : BleState) {c : BleCmd} (hc : c ≠ .handshakeRsp) (now : UInt32) :
    Relays s (sentCmds (bleSendProtocolCmd s c now).2) (bleSendProtocolCmd s c now).1 := by
  unfold bleSendProtocolCmd
  split_ifs with hno
  · exact relays_quiet rfl rfl rfl rfl
  · have hok : s.controler.handshakeOk = true := by
      by_contra h
      exact hno ⟨hc, h⟩
    have hcmds : sentCmds [.uart (cmdBytes c)] = [c] := by
      simp only [sentCmds, List.filterMap_cons, commandOf_cmdBytes, List.filterMap_nil]
    rw [hcmds]
    exact ⟨rfl, rfl, rfl, fun d hd => ⟨hok, by rw [List.mem_singleton.mp hd]; exact hc⟩⟩

theorem relays_appCmd (s : BleState) (appCmd : UInt8) (data : List UInt8) (now : UInt32) :
    Relays s (sentCmds (handleAppCmdAndReply s appCmd data now).2)
      (handleAppCmdAndReply s appCmd data now).1 := by
  simp only [handleAppCmdAndReply]
  split_ifs
  all_goals first
    | exact relays_quiet rfl rfl rfl rfl
    | exact relays_send s (by decide) now

theorem relays_call (b : Bridge) {k : HandlerCall} (h : Headed k) (now : UInt32) :
    Relays b.ble (sentCmds (callHandler b k now).2) (callHandler b k now).1.ble := by
  cases k with
  | appCmd appCmd frame => exact relays_appCmd b.ble appCmd frame now
  | handshake frame => exact relays_quiet (sentCmds_handshake b.ee frame) rfl rfl rfl
  | readWrite frame cmd => exact relays_quiet (sentCmds_readWrite b.ble.v3 h cmd now) rfl rfl rfl
  | mcuReply frame cmd => exact relays_quiet (sentCmds_mcuReply b.ble.v3 frame cmd) rfl rfl rfl
  | otaStart frame => exact relays_quiet (sentCmds_otaStart b.ota frame) rfl rfl rfl
  | otaData frame frameLen => exact relays_quiet (sentCmds_otaData b.ota frame frameLen) rfl rfl rfl
  | packageRetry frame => exact relays_quiet (sentCmds_packageRetry b.ota frame) rfl rfl rfl
  | eraseRetry frame => exact relays_quiet (sentCmds_eraseRetry b.ota frame) rfl rfl rfl

theorem relays_calls (b : Bridge) (clock : ℕ → UInt32) {ks : List HandlerCall}
    (h : ∀ k ∈ ks, Headed k) :
    Relays b.ble (sentCmds (runCalls b clock ks).2) (runCalls b clock ks).1.ble := by
  induction ks generalizing b clock with
  | nil => exact relays_quiet rfl rfl rfl rfl
  | cons k ks ih =>
    obtain ⟨hk, hks⟩ := List.forall_mem_cons.mp h
    rw [runCalls_cons, sentCmds_append]
    exact (relays_call b hk _).append (ih _ _ hks)

theorem headed_app (data : List UInt8) (len : UInt16) :
    ∀ k ∈ v3HandleAppData data len, Headed k := by
  unfold v3HandleAppData
  split_ifs
  · exact fun k hk => absurd hk List.not_mem_nil
  · exact headed_calls data len true

theorem headed_mcu (data : List UInt8) (len : UInt16) :
    ∀ k ∈ v3HandleMcuData data len, Headed k := by
  unfold v3HandleMcuData
  split_ifs
  · exact fun k hk => absurd hk List.not_mem_nil
  · exact headed_calls data len false

section Uart
variable (addr : List UInt8)

theorem relays_rxCall (f : FirmwareState) (clock : ℕ → UInt32) {c : RxCall}
    (h : ∀ data, c ≠ .protocolData data) :
    Relays f.bridge.ble (sentCmds (rxCall addr f clock c).2)
      (rxCall addr f clock c).1.bridge.ble := by
  cases c with
  | ctrlReply cmd =>
    exact relays_quiet (sentCmds_ctrl f.ctrl f.bridge.ee (.reply cmd (clock 0))) rfl rfl rfl
  | mcuData data => exact relays_calls f.bridge clock (headed_mcu data _)
  | protocolData data => exact absurd rfl (h data)
  | ucCmd data => exact relays_quiet (sentCmds_ucCmd addr data) rfl rfl rfl

theorem relays_rxCalls (f : FirmwareState) (clock : ℕ → UInt32) {cs : List RxCall}
    (h : ∀ c ∈ cs, ∀ data, c ≠ .protocolData data) :
    Relays f.bridge.ble (sentCmds (rxCalls addr f clock cs).2)
      (rxCalls addr f clock cs).1.bridge.ble := by
  induction cs generalizing f clock with
  | nil => exact relays_quiet rfl rfl rfl rfl
  | cons c cs ih =>
    obtain ⟨hc, hcs⟩ := List.forall_mem_cons.mp h
    show Relays _ (sentCmds (_ ++ _)) _
    rw [sentCmds_append]
    exact (relays_rxCall addr f clock hc).append (ih _ _ hcs)

end Uart

/-- What the channel can do in a step; `answered` says that the step is one with the answer to the
handshake. -/
inductive ChannelMove (s : BleState) (answered : Prop) : BleState → List BleCmd → Prop
  | relays {s' : BleState} {cmds : List BleCmd} : ¬ answered → Relays s cmds s' →
      ChannelMove s answered s' cmds
  | handshake {s' : BleState} : ¬ answered → s.controler.handshakeOk = false →
      s.handshakeRetryCount < handshakeMaxRetry →
      s'.controler = { s.controler with lastCmdType := some .handshakeRsp } →
      s'.handshakeRetryCount = s.handshakeRetryCount + 1 → ChannelMove s answered s' [.handshakeRsp]
  | opened {s' : BleState} : answered → s'.controler.handshakeOk = true →
      s'.controler.lastCmdType = s.controler.lastCmdType → ChannelMove s answered s' []

theorem ChannelMove.congr {s s' : BleState} {a a' : Prop} {cmds : List BleCmd}
    (h : ChannelMove s a s' cmds) (haa : a ↔ a') : ChannelMove s a' s' cmds := by
  rwa [← propext haa]

theorem clearWaiting_retries (s : BleState) (t : Option BleCmd) (now : UInt32) :
    (clearWaiting s t now).handshakeRetryCount = s.handshakeRetryCount := by
  unfold clearWaiting
  split
  · rfl
  · split_ifs <;> rfl

theorem checkTimeouts_retries (now : UInt32) : ∀ (cs : List BleCmd) (s : BleState),
    (checkTimeouts now cs s).1.handshakeRetryCount = s.handshakeRetryCount
  | [], _ => rfl
  | c :: cs, s => by
    simp only [checkTimeouts]
    split_ifs
    · exact checkTimeouts_retries now cs _
    · exact checkTimeouts_retries now cs s

/-- The answer to the handshake, and nothing else, opens the channel. -/
theorem decodeReply_channel (s : BleState) (t : Option BleCmd) (b0 b1 : UInt8) :
    (t = some .handshakeRsp ∧ b0 = 0x5A ∧ b1 = 0xA5 ∧
      (decodeReply s t b0 b1).1.controler.handshakeOk = true) ∨
    (¬ (t = some .handshakeRsp ∧ b0 = 0x5A ∧ b1 = 0xA5) ∧
      (decodeReply s t b0 b1).1.controler.handshakeOk = s.controler.handshakeOk ∧
      (decodeReply s t b0 b1).1.handshakeRetryCount = s.handshakeRetryCount) := by
  rcases t with _ | c
  · exact .inr ⟨by simp, rfl, rfl⟩
  cases c with
  | handshakeRsp =>
    by_cases hb : b0 = 0x5A ∧ b1 = 0xA5
    · exact .inl ⟨rfl, hb.1, hb.2, by simp only [decodeReply, if_pos hb]⟩
    · exact .inr ⟨fun h => hb h.2, by simp only [decodeReply, if_neg hb, and_self]⟩
  | unlockStatusRsp | unlockRsp | lockRsp =>
    refine .inr ⟨by simp, ?_⟩
    simp only [decodeReply]
    split_ifs <;> exact ⟨rfl, rfl⟩
  | faultQueryRsp => exact .inr ⟨by simp, rfl, rfl⟩

theorem channelMove_protocol (s : BleState) (data : List UInt8) (now : UInt32) :
    ChannelMove s (data = [0x5A, 0xA5] ∧ s.controler.lastCmdType = some .handshakeRsp)
      (handleProtocolData s data now).1 (sentCmds (handleProtocolData s data now).2) := by
  rcases protocol_cases s data now with ⟨b0, b1, rfl, hstep⟩ | ⟨htwo, hsame, hcmds⟩
  · have hlast : (handleProtocolData s [b0, b1] now).1.controler.lastCmdType =
        s.controler.lastCmdType := lastCmdType_reply s b0 b1 now
    have hcmds : sentCmds (handleProtocolData s [b0, b1] now).2 = [] := sentCmds_reply s b0 b1 now
    have hreply := decodeReply_channel (clearWaiting s s.controler.lastCmdType now)
      s.controler.lastCmdType b0 b1
    rw [← hstep, clearWaiting_controler, clearWaiting_retries] at hreply
    rcases hreply with ⟨ht, rfl, rfl, hok⟩ | ⟨hno, hok, hretries⟩
    · rw [hcmds]
      exact .opened ⟨rfl, ht⟩ hok hlast
    · refine .relays (fun h => hno ?_) (relays_quiet hcmds hok hlast hretries)
      obtain ⟨hb0, hb1⟩ := List.cons_eq_cons.mp h.1
      exact ⟨h.2, hb0, (List.cons_eq_cons.mp hb1).1⟩
  · refine .relays (fun h => htwo ?_) ?_
    · rw [h.1]
      rfl
    · rw [hsame]
      exact relays_quiet hcmds rfl rfl rfl

/-! ### Every step makes one of the moves -/

/-- The event delivers the reply `5A A5`. -/
def DeliversOk (f : FirmwareState) : FirmwareEvent → Prop
  | .uart event _ => .protocolData [0x5A, 0xA5] ∈ callsOf (rxStep f.rx event).2
  | _ => False

/-- With the handshake as the last command. -/
def Answers (f : FirmwareState) (x : FirmwareEvent) : Prop :=
  DeliversOk f x ∧ f.bridge.ble.controler.lastCmdType = some .handshakeRsp

theorem callsOf_append (os os' : List RxOut) : callsOf (os ++ os') = callsOf os ++ callsOf os' :=
  List.filterMap_append

theorem callsOf_stores {os : List RxOut} (h : ∀ o ∈ os, ∃ i, o = .store i) : callsOf os = [] := by
  refine List.filterMap_eq_nil_iff.mpr fun o ho => ?_
  obtain ⟨i, rfl⟩ := h o ho
  rfl

theorem callsOf_map_call (cs : List RxCall) : callsOf (cs.map RxOut.call) = cs := by
  unfold callsOf
  rw [List.filterMap_map]
  exact List.filterMap_some

/-- At the end of a TIMEOUT the collected bytes go to `Handle_protocol_data` and
`handle_UC_uart_cmd`, or neither is called. -/
theorem tail_calls (v : RxState) : (∀ c ∈ (timeoutTail v).2, ∀ data, c ≠ .protocolData data) ∨
    ∃ data, (timeoutTail v).2 = [.protocolData data, .ucCmd data] := by
  by_cases hr : HasCtrlReply v
  · refine .inl fun c hc data heq => ?_
    rw [timeoutTail_ctrl hr] at hc
    obtain ⟨cmd, rfl⟩ := otaReplyLoop_calls _ _ _ hc
    cases heq
  · rw [timeoutTail_of_not hr]
    split_ifs
    · exact .inl fun c hc data heq => by cases (List.mem_singleton.mp hc).symm.trans heq
    · exact .inl fun c hc => absurd hc List.not_mem_nil
    · exact .inr ⟨_, rfl⟩

theorem calls_cases (u : RxState) (event : UartEvent) :
    (∀ c ∈ callsOf (rxStep u event).2, ∀ data, c ≠ .protocolData data) ∨
      ∃ data, callsOf (rxStep u event).2 = [.protocolData data, .ucCmd data] := by
  cases event with
  | timeout arrived =>
    have hcalls : callsOf (rxStep u (.timeout arrived)).2 =
        (timeoutTail (timeoutFill (recNum (arrive u arrived)) (arrive u arrived)).1).2 := by
      show callsOf (_ ++ _) = _
      rw [callsOf_append, callsOf_stores (timeoutFill_outs _ _), callsOf_map_call, List.nil_append]
    rw [hcalls]
    exact tail_calls _
  | data arrived =>
    have hcalls : callsOf (rxStep u (.data arrived)).2 = [] := by
      simp only [rxStep]
      split_ifs
      · exact callsOf_stores (dataFill_outs _ _)
      · rfl
    rw [hcalls]
    exact .inl fun c hc => absurd hc List.not_mem_nil

section Step
variable (addr : List UInt8) (f : FirmwareState)

theorem channelMove_uart (event : UartEvent) (clock : ℕ → UInt32) :
    ChannelMove f.bridge.ble (Answers f (.uart event clock))
      (firmwareStep addr f (.uart event clock)).1.bridge.ble
      (sentCmds (firmwareStep addr f (.uart event clock)).2) := by
  rcases calls_cases f.rx event with hnone | ⟨data, hdata⟩
  · refine .relays (fun h => hnone _ h.1 _ rfl) ?_
    exact relays_rxCalls addr { f with rx := (rxStep f.rx event).1 } clock hnone
  · have hans : Answers f (.uart event clock) ↔
        data = [0x5A, 0xA5] ∧ f.bridge.ble.controler.lastCmdType = some .handshakeRsp := by
      refine and_congr_left fun _ => ?_
      show RxCall.protocolData [0x5A, 0xA5] ∈ callsOf (rxStep f.rx event).2 ↔ _
      rw [hdata]
      simp [eq_comm]
    have hmove := (channelMove_protocol f.bridge.ble data (clock 0)).congr hans.symm
    simp only [firmwareStep, hdata, rxCalls, rxCall, sentCmds_append, sentCmds_ucCmd,
      List.append_nil]
    exact hmove

theorem channelMove_handshakeTick (now : UInt32) :
    ChannelMove f.bridge.ble (Answers f (.handshakeTick now))
      (firmwareStep addr f (.handshakeTick now)).1.bridge.ble
      (sentCmds (firmwareStep addr f (.handshakeTick now)).2) := by
  have hno : ¬ Answers f (.handshakeTick now) := fun h => h.1
  rcases handshakeTick_cases addr f now with ⟨hok, hretry, hstep⟩ | ⟨hsame, hcmds⟩
  · rw [hstep]
    exact .handshake hno hok hretry rfl rfl
  · rw [hsame]
    exact .relays hno (relays_quiet hcmds rfl rfl rfl)

/-- **What a step does to the channel.** -/
theorem firmwareStep_channel (x : FirmwareEvent) :
    ChannelMove f.bridge.ble (Answers f x) (firmwareStep addr f x).1.bridge.ble
      (sentCmds (firmwareStep addr f x).2) := by
  cases x with
  | appData data clock =>
    exact .relays (fun h => h.1) (relays_calls f.bridge clock (headed_app data _))
  | uart event clock => exact channelMove_uart addr f event clock
  | handshakeTick now => exact channelMove_handshakeTick addr f now
  | timeoutTick now =>
    have hc := controler_tick f.bridge.ble now
    refine .relays (fun h => h.1) (relays_quiet (sentCmds_tick f.bridge.ble now) ?_ ?_ ?_)
    · exact congrArg ControlerState.handshakeOk hc
    · exact congrArg ControlerState.lastCmdType hc
    · exact checkTimeouts_retries now _ _
  | mainLoop now =>
    exact .relays (fun h => h.1) (relays_quiet (sentCmds_ctrl _ _ (.tick now)) rfl rfl rfl)

end Step

end BleHidUart.Firmware.Channel
