import BleHidUart.Firmware.OtaDevice
import BleHidUart.Firmware.Parsed
import BleHidUart.V2.LockState

/-!
# The link for the commands in a run of `main`

The lock state, and the commands of the app that wait for the controller. The commands on the UART
and the answers to the app are told from all other effects. While the app gives no command, the
controller sends no string of two bytes and nothing expires, `link_run` says that the link stays as
it is and none of them goes out, whatever else reaches `main`. Then a command goes out, a reply
comes, or the time of the command is over.
-/

namespace BleHidUart.Firmware.Link

open BleHidUart.Board BleHidUart.Firmware.Calls BleHidUart.Firmware.Channel
open BleHidUart.Firmware.Machine BleHidUart.Firmware.Main BleHidUart.Firmware.OtaDevice
open BleHidUart.Firmware.Parsed BleHidUart.Lib.Run BleHidUart.Lib.Word BleHidUart.Uart.Receiver
open BleHidUart.V2.Bridge BleHidUart.V2.LockState BleHidUart.V2.Moves BleHidUart.V3.Bridge
open BleHidUart.V3.Handlers BleHidUart.V3.Parser

/-! ### What is no command and no answer -/

/-- A command for the controller, or an answer to one of the app; that of the handshake is none. -/
def isCommandEffect : Effect → Bool
  | .uart data => (commandOf data).isSome
  | .notify data _ => byteAt data 0 = 0xAA ∧ byteAt data 1 ≠ appCmdHandshakeRsp
  | .i2c _ | .led _ => false

/-- Those among the effects. -/
def commandEffects (fx : List Effect) : List Effect := fx.filter isCommandEffect

theorem head_ne_app : v3FrameHead0 ≠ 0xAA := by decide

/-- None of the effects is one. -/
abbrev Foreign (fx : List Effect) : Prop := ∀ o ∈ fx, isCommandEffect o = false

theorem commandEffects_append (fx gx : List Effect) :
    commandEffects (fx ++ gx) = commandEffects fx ++ commandEffects gx := List.filter_append ..

theorem commandEffects_foreign {fx : List Effect} (h : Foreign fx) : commandEffects fx = [] :=
  List.filter_eq_nil_iff.mpr fun o ho => by simp [h o ho]

theorem foreign_nil : Foreign [] := fun _ ho => absurd ho List.not_mem_nil

theorem foreign_singleton {o : Effect} (h : isCommandEffect o = false) : Foreign [o] :=
  fun _ ho => by
  rwa [List.mem_singleton.mp ho]

theorem foreign_uart {data : List UInt8} (h : byteAt data 0 ≠ 0x5A) :
    isCommandEffect (.uart data) = false := by
  rw [isCommandEffect, commandOf_of_head h]
  rfl

theorem foreign_notify {data : List UInt8} (len : ℕ) (h : byteAt data 0 ≠ 0xAA) :
    isCommandEffect (.notify data len) = false := decide_eq_false fun hno => h hno.1

theorem foreign_device {fx : List Effect} (h : ∀ o ∈ fx, isDeviceEffect o = true) : Foreign fx := by
  intro o ho
  have hdev := h o ho
  cases o with
  | i2c | led => rfl
  | uart data =>
    refine foreign_uart fun h0 => ?_
    have hzero := congrArg (byteAt · 0) (of_decide_eq_true hdev)
    rw [byteAt_take (by decide), h0] at hzero
    exact absurd hzero (by decide)
  | notify data len =>
    refine foreign_notify len fun h0 => ?_
    have hzero := congrArg (byteAt · 0) (of_decide_eq_true hdev).1
    rw [byteAt_take (by decide), h0] at hzero
    exact absurd hzero (by decide)

theorem foreign_crcError (frame : List UInt8) (cmd : UInt8) : Foreign [v3CrcError frame cmd] :=
  foreign_singleton (foreign_notify _ head_ne_app)

theorem foreign_readWrite (s : V3BridgeState) {frame : List UInt8}
    (h : byteAt frame 0 = v3FrameHead0) (cmd : UInt8) (now : UInt32) :
    Foreign (v3HandleReadWrite s frame cmd now).2 := by
  simp only [v3HandleReadWrite]
  split_ifs
  · refine foreign_singleton (foreign_uart ?_)
    rw [byteAt_take (by decide), h]
    decide
  · exact foreign_crcError frame cmd

theorem foreign_mcuReply (s : V3BridgeState) {frame : List UInt8}
    (h : byteAt frame 0 = v3FrameHead0) (cmd : UInt8) :
    Foreign (v3HandleMcuReply s frame cmd).2 := by
  simp only [v3HandleMcuReply]
  split_ifs
  · refine foreign_singleton (foreign_notify _ ?_)
    rw [byteAt_take (by decide), h]
    decide
  · exact foreign_crcError frame cmd

theorem foreign_v3Timeout (s : V3BridgeState) (now : UInt32) :
    Foreign (v3TimeoutCheck s now).2 := by
  simp only [v3TimeoutCheck]
  split_ifs
  · exact foreign_nil
  · exact foreign_singleton rfl
  · exact foreign_singleton rfl
  · exact foreign_nil

theorem foreign_address (addr data : List UInt8) : Foreign (handleUcUartCmd addr data) := by
  have hhead : (0xAA : UInt8) ≠ 0x5A := by decide
  unfold handleUcUartCmd
  split_ifs
  · exact foreign_singleton (foreign_uart hhead)
  · exact foreign_nil

theorem foreign_handshake (e : Eeprom) (frame : List UInt8) :
    Foreign (v3HandleHandshake e frame) := by
  simp only [v3HandleHandshake]
  split_ifs
  · exact List.forall_mem_cons.mpr ⟨rfl, foreign_singleton (foreign_notify _ head_ne_app)⟩
  · exact foreign_nil

/-- The call hands on a command of the app. -/
def IsCommand : HandlerCall → Bool
  | .appCmd appCmd _ =>
    appCmd ∈ [appCmdQueryUnlockRsp, appCmdUnlockRsp, appCmdLockRsp, appCmdFaultQueryRsp]
  | _ => false

theorem appCmd_other {appCmd : UInt8} {frame : List UInt8}
    (h : IsCommand (.appCmd appCmd frame) = false) (s : BleState) (now : UInt32) :
    (handleAppCmdAndReply s appCmd frame now).1 = s ∧
      Foreign (handleAppCmdAndReply s appCmd frame now).2 := by
  simp only [IsCommand, decide_eq_false_iff_not, List.mem_cons, List.not_mem_nil, or_false,
    not_or] at h
  obtain ⟨hquery, hunlock, hlock, hfault⟩ := h
  simp only [handleAppCmdAndReply, if_neg hquery, if_neg hunlock, if_neg hlock, if_neg hfault]
  split_ifs
  · exact ⟨rfl, foreign_singleton rfl⟩
  · exact ⟨rfl, foreign_singleton rfl⟩
  · exact ⟨rfl, foreign_nil⟩

theorem protocol_other {data : List UInt8} (h : data.length ≠ 2) (s : BleState) (now : UInt32) :
    (handleProtocolData s data now).1 = s ∧ Foreign (handleProtocolData s data now).2 := by
  unfold handleProtocolData handleMcuReplydata
  split_ifs
  · exact ⟨rfl, foreign_nil⟩
  · exact ⟨rfl, foreign_nil⟩
  · split
    · exact absurd rfl h
    · exact ⟨rfl, foreign_singleton rfl⟩

/-! ### Rounds of the timer -/

section Timer
variable {s : BleState} {now : UInt32}

theorem checkTimeouts_none : ∀ {cs : List BleCmd} {s : BleState}, (∀ c ∈ cs, ¬Expired s now c) →
    checkTimeouts now cs s = (s, [])
  | [], _, _ => rfl
  | c :: cs, s, h => by
    obtain ⟨hc, hcs⟩ := List.forall_mem_cons.mp h
    have hno : ¬((s.cmdWait c).waiting ∧ 2000 < now - (s.cmdWait c).sendTimeMs) := hc
    rw [checkTimeouts, if_neg hno]
    exact checkTimeouts_none hcs

theorem checkTimeouts_one {c : BleCmd} : ∀ {cs : List BleCmd} {s : BleState}, cs.Nodup → c ∈ cs →
    Expired s now c → (∀ d ∈ cs, d ≠ c → ¬Expired s now d) →
      (checkTimeouts now cs s).2 = timeoutOutcome c
  | [], _, _, hmem, _, _ => absurd hmem List.not_mem_nil
  | d :: cs, s, hnodup, hmem, hexp, hothers => by
    obtain ⟨hd, hcs⟩ := List.nodup_cons.mp hnodup
    obtain ⟨-, hrest⟩ := List.forall_mem_cons.mp hothers
    by_cases hc : d = c
    · subst hc
      have hyes : (s.cmdWait d).waiting ∧ 2000 < now - (s.cmdWait d).sendTimeMs := hexp
      have hne : ∀ b ∈ cs, b ≠ d := fun b hb heq => hd (heq ▸ hb)
      rw [checkTimeouts, if_pos hyes,
        checkTimeouts_none fun b hb => mt (expired_update (hne b hb) _).mp (hrest b hb (hne b hb))]
      exact List.append_nil _
    · have hno : ¬((s.cmdWait d).waiting ∧ 2000 < now - (s.cmdWait d).sendTimeMs) :=
        hothers d List.mem_cons_self hc
      have hmem' : c ∈ cs := (List.mem_cons.mp hmem).resolve_left fun heq => hc heq.symm
      rw [checkTimeouts, if_neg hno]
      exact checkTimeouts_one hcs hmem' hexp hrest

end Timer

/-! ### Undisturbed runs -/

/-- The lock state and the commands that wait. -/
abbrev LinkState := ControlerState × (BleCmd → CmdWait)

/-- That of the firmware. -/
abbrev linkOf (f : FirmwareState) : LinkState := (f.bridge.ble.controler, f.bridge.ble.cmdWait)

/-- A command of the app, or a string of two bytes. -/
def Disturbs : Call → Bool
  | .parsed k _ => IsCommand k
  | .protocolData data _ => data.length = 2
  | _ => false

section Calls
variable (addr : List UInt8) {f : FirmwareState}

/-- Any other call leaves the link alone, if the handshake is done and no command expires. -/
theorem link_call {c : Call} (hc : FramedCall c) (hok : (linkOf f).1.handshakeOk = true)
    (hno : Disturbs c = false)
    (htick : ∀ now, c = .timeoutTick now → ∀ a : AppCmd, ¬Expired f.bridge.ble now a.cmd) :
    linkOf (singleStep addr f c).1 = linkOf f ∧ Foreign (singleStep addr f c).2 := by
  cases c with
  | parsed k now =>
    obtain ⟨hframed, hshaped, hheaded⟩ := hc
    cases k with
    | appCmd appCmd frame =>
      obtain ⟨hstate, heffects⟩ := appCmd_other hno f.bridge.ble now
      exact ⟨congrArg (fun s : BleState => (s.controler, s.cmdWait)) hstate, heffects⟩
    | handshake frame => exact ⟨rfl, foreign_handshake _ frame⟩
    | readWrite frame cmd => exact ⟨rfl, foreign_readWrite _ hheaded cmd now⟩
    | mcuReply frame cmd => exact ⟨rfl, foreign_mcuReply _ hshaped.1 cmd⟩
    | otaStart frame =>
      obtain ⟨g, rfl⟩ := hframed
      exact ⟨rfl, foreign_device (effects_device (deviceOf f) (.app (.start g)))⟩
    | otaData frame n =>
      obtain ⟨g, rfl, rfl⟩ := hframed
      exact ⟨rfl, foreign_device (effects_device (deviceOf f) (.app (.data g)))⟩
    | packageRetry frame =>
      obtain ⟨g, rfl⟩ := hframed
      exact ⟨rfl, foreign_device (effects_device (deviceOf f) (.app (.packageRetry g)))⟩
    | eraseRetry frame =>
      obtain ⟨g, rfl⟩ := hframed
      exact ⟨rfl, foreign_device (effects_device (deviceOf f) (.app (.eraseRetry g)))⟩
  | ctrlReply cmd now =>
    exact ⟨rfl, foreign_device (effects_device (deviceOf f) (.ctrl (.reply cmd now)))⟩
  | mainLoop now => exact ⟨rfl, foreign_device (effects_device (deviceOf f) (.ctrl (.tick now)))⟩
  | protocolData data now =>
    obtain ⟨hstate, heffects⟩ := protocol_other (of_decide_eq_false hno) f.bridge.ble now
    exact ⟨congrArg (fun s : BleState => (s.controler, s.cmdWait)) hstate, heffects⟩
  | ucCmd data => exact ⟨rfl, foreign_address addr data⟩
  | receiver event => exact ⟨rfl, foreign_nil⟩
  | handshakeTick now =>
    have hdone : ¬¬f.bridge.ble.controler.handshakeOk = true := not_not.mpr hok
    simp only [singleStep, firmwareStep, handshakeTimerCb, if_neg hdone]
    split_ifs
    · exact ⟨rfl, foreign_nil⟩
    · exact ⟨rfl, foreign_nil⟩
  | timeoutTick now =>
    have hnone := @checkTimeouts_none now timedCmds
      { f.bridge.ble with v3 := (v3TimeoutCheck f.bridge.ble.v3 now).1 } fun c hc => by
        obtain ⟨a, rfl⟩ := cmd_of_mem_timedCmds hc
        exact htick now rfl a
    have hstate := congrArg (fun r => (r.1.controler, r.1.cmdWait)) hnone
    have heffects := congrArg Prod.snd hnone
    refine ⟨hstate, ?_⟩
    show Foreign ((v3TimeoutCheck f.bridge.ble.v3 now).2 ++ (checkTimeouts now timedCmds _).2)
    rw [heffects, List.append_nil]
    exact foreign_v3Timeout _ now

theorem link_calls {cs : List Call} (hframed : ∀ c ∈ cs, FramedCall c)
    (hok : (linkOf f).1.handshakeOk = true) (hno : ∀ c ∈ cs, Disturbs c = false)
    (htick : ∀ now, .timeoutTick now ∈ cs → ∀ a : AppCmd, ¬Expired f.bridge.ble now a.cmd) :
    linkOf (final (singleStep addr) f cs) = linkOf f ∧
      commandEffects (outs (singleStep addr) f cs) = [] := by
  induction cs generalizing f with
  | nil => exact ⟨rfl, rfl⟩
  | cons c cs ih =>
    obtain ⟨hc, hframed⟩ := List.forall_mem_cons.mp hframed
    obtain ⟨hone, hno⟩ := List.forall_mem_cons.mp hno
    obtain ⟨hlink, hforeign⟩ :=
      link_call addr hc hok hone fun now heq => htick now (heq ▸ List.mem_cons_self)
    have hwait : (singleStep addr f c).1.bridge.ble.cmdWait = f.bridge.ble.cmdWait :=
      congrArg Prod.snd hlink
    obtain ⟨hfinal, houts⟩ := ih hframed (by rw [hlink]; exact hok) hno fun now hmem a hexp => by
      rw [Expired, hwait] at hexp
      exact htick now (List.mem_cons_of_mem _ hmem) a hexp
    rw [final_cons, hfinal, hlink, outs_cons, commandEffects_append,
      commandEffects_foreign hforeign, houts]
    exact ⟨rfl, rfl⟩

/-- With the receiver in the state `u`, the events bring no command of the app and no answer of two
bytes. -/
structure Undisturbed (u : RxState) (ys : List MainEvent) : Prop where
  commands : ∀ k ∈ parsedIn u ys, IsCommand k = false
  strings : ∀ data ∈ strings (outs rxStep u (uartIn ys)), data.length ≠ 2

instance (u : RxState) (ys : List MainEvent) : Decidable (Undisturbed u ys) :=
  decidable_of_iff ((parsedIn u ys).all (!IsCommand ·) ∧
    (strings (outs rxStep u (uartIn ys))).all (·.length ≠ 2)) <| by
    simp only [List.all_eq_true, Bool.not_eq_true', decide_eq_true_eq]
    exact ⟨fun h => ⟨h.1, h.2⟩, fun h => ⟨h.1, h.2⟩⟩

variable {m : MainState}

/-- **A run that is not disturbed** leaves the link alone, if no command expires. -/
theorem link_run {ys : List MainEvent} (hok : (linkOf m.firmware).1.handshakeOk = true)
    (hys : Undisturbed m.firmware.rx ys)
    (htick : ∀ now, .event (.timeoutTick now) ∈ ys → ∀ a : AppCmd,
      ¬Expired m.firmware.bridge.ble now a.cmd) :
    linkOf (final (mainStep addr) m ys).firmware = linkOf m.firmware ∧
      commandEffects (outs (mainStep addr) m ys) = [] := by
  obtain ⟨hfinal, houts⟩ := run_calls addr m ys
  rw [hfinal, houts]
  refine link_calls addr (framed_run addr m.firmware _) hok (fun c hc => ?_) fun now hc => ?_
  · cases c with
    | parsed k now =>
      have hk : k ∈ handlerCalls (callsFrom addr m ys) := List.mem_filterMap.mpr ⟨_, hc, rfl⟩
      rw [(parsed_run addr m ys).1] at hk
      exact hys.commands k hk
    | protocolData data now =>
      have hdata : data ∈ stringCalls (callsFrom addr m ys) := List.mem_filterMap.mpr ⟨_, hc, rfl⟩
      rw [strings_run] at hdata
      exact decide_eq_false (hys.strings data hdata)
    | ctrlReply | ucCmd | receiver | handshakeTick | timeoutTick | mainLoop => rfl
  · exact htick now (tick_mem addr m hc)

end Calls

/-! ### One command -/

/-- No command waits. -/
structure Idle (l : LinkState) (unlocked : Bool) : Prop where
  handshake : l.1.handshakeOk = true
  unlocked : l.1.activeOk = unlocked
  idle : ∀ a : AppCmd, (l.2 a.cmd).waiting = false

/-- The command `a` waits since `t₀`, and no other. -/
structure Asked (l : LinkState) (unlocked : Bool) (a : AppCmd) (t₀ : UInt32) : Prop where
  handshake : l.1.handshakeOk = true
  unlocked : l.1.activeOk = unlocked
  last : l.1.lastCmdType = some a.cmd
  waiting : (l.2 a.cmd).waiting = true
  since : (l.2 a.cmd).sendTimeMs = t₀
  others : ∀ b : AppCmd, b ≠ a → (l.2 b.cmd).waiting = false

/-- The app is told that no unlock command is needed. -/
def alreadyUnlocked : Effect := .notify [0xAA, 0x02, 0x02, 0x55] 4

/-- What the app is told of a reply `b0 b1`; nothing, if it is not one to the command. -/
def toldReply (a : AppCmd) (b0 b1 : UInt8) : List Effect :=
  (replyOutcome (some a.cmd) b0 b1).toList.map fun data => .notify data data.length

/-- What it is told when there is no reply: locked, not done, or no fault. -/
def toldTimeout (a : AppCmd) : Effect :=
  if a = .faultQuery then .notify [0xAA, a.code, 0x00, 0x00, 0x55] 5
    else .notify [0xAA, a.code, 0x01, 0x55] 4

/-- An unlock command is refused while the lock state is unlocked. -/
def Refuses (unlocked : Bool) (a : AppCmd) : Prop := a = .unlock ∧ unlocked = true

instance (unlocked : Bool) (a : AppCmd) : Decidable (Refuses unlocked a) :=
  inferInstanceAs (Decidable (_ ∧ _))

section Link
variable {s : BleState} {unlocked : Bool} {a : AppCmd} {t₀ now : UInt32}

theorem cmd_injective : Function.Injective AppCmd.cmd := by
  intro a b h
  cases a <;> cases b <;> first | rfl | cases h

theorem Asked.expired_iff (h : Asked (s.controler, s.cmdWait) unlocked a t₀) (b : AppCmd) :
    Expired s now b.cmd ↔ b = a ∧ 2000 < now - t₀ := by
  have hsince : (s.cmdWait a.cmd).sendTimeMs = t₀ := h.since
  by_cases hb : b = a
  · subst hb
    rw [Expired, hsince, and_iff_right h.waiting, and_iff_right rfl]
  · have hno : ¬(s.cmdWait b.cmd).waiting = true := by
      rw [show (s.cmdWait b.cmd).waiting = false from h.others b hb]
      exact Bool.false_ne_true
    exact ⟨fun hexp => absurd hexp.1 hno, fun hexp => absurd hexp.1 hb⟩

theorem link_sends (h : Idle (s.controler, s.cmdWait) unlocked) (hno : ¬Refuses unlocked a)
    (now : UInt32) :
    Asked ((v2Step s (.app a now)).1.controler, (v2Step s (.app a now)).1.cmdWait) unlocked a now ∧
      commandEffects (v2Step s (.app a now)).2 = [.uart (cmdBytes a.cmd)] := by
  have hsends : Sends s a :=
    ⟨h.handshake, fun hboth => hno ⟨hboth.1, h.unlocked.symm.trans hboth.2⟩⟩
  have hkept : isCommandEffect (.uart (cmdBytes a.cmd)) = true := by
    rw [isCommandEffect, commandOf_cmdBytes]
    rfl
  rw [app_sends hsends]
  refine ⟨⟨h.handshake, h.unlocked, rfl, ?_, ?_, fun b hb => ?_⟩, List.filter_cons_of_pos hkept⟩
  · rw [waiting_sent, if_pos rfl]
  · simp only [sent, Function.update_self]
  · rw [waiting_sent, if_neg fun heq => hb (cmd_injective heq)]
    exact h.idle b

theorem link_refuses (h : Idle (s.controler, s.cmdWait) unlocked) (hrefuses : Refuses unlocked a)
    (now : UInt32) : (v2Step s (.app a now)).1 = s ∧
      commandEffects (v2Step s (.app a now)).2 = [alreadyUnlocked] := by
  obtain ⟨rfl, hunlocked⟩ := hrefuses
  have hactive : s.controler.activeOk = true := h.unlocked.trans hunlocked
  rw [app_answers fun hsends => hsends.2 ⟨rfl, hactive⟩, localAnswer, if_pos hactive]
  exact ⟨rfl, rfl⟩

theorem commandEffects_decode (s : BleState) (a : AppCmd) (b0 b1 : UInt8) :
    commandEffects (decodeReply s (some a.cmd) b0 b1).2 = toldReply a b0 b1 := by
  cases a with
  | queryUnlock | unlock | lock | faultQuery =>
    simp only [AppCmd.cmd, decodeReply, toldReply, replyOutcome]
    split_ifs <;> rfl

theorem link_reply (h : Asked (s.controler, s.cmdWait) unlocked a t₀) (htime : now - t₀ ≤ 2000)
    (b0 b1 : UInt8) :
    Idle ((handleProtocolData s [b0, b1] now).1.controler,
      (handleProtocolData s [b0, b1] now).1.cmdWait)
        (flagAfter unlocked a.cmd (confirms a.cmd b0 b1)) ∧
      commandEffects (handleProtocolData s [b0, b1] now).2 = toldReply a b0 b1 := by
  have hlast : s.controler.lastCmdType = some a.cmd := h.last
  have hsince : (s.cmdWait a.cmd).sendTimeMs = t₀ := h.since
  have hdecode : handleProtocolData s [b0, b1] now =
      decodeReply (clearWaiting s s.controler.lastCmdType now) s.controler.lastCmdType b0 b1 := rfl
  refine ⟨⟨?_, ?_, fun b => ?_⟩, ?_⟩
  · have hkept := decodeReply_channel (clearWaiting s s.controler.lastCmdType now)
      s.controler.lastCmdType b0 b1
    rw [← hdecode, clearWaiting_controler] at hkept
    rcases hkept with ⟨-, -, -, hok⟩ | ⟨-, hok, -⟩
    · exact hok
    · exact hok.trans h.handshake
  · have hactive := activeOk_reply s a.cmd b0 b1 now hlast
    rw [show s.controler.activeOk = unlocked from h.unlocked] at hactive
    exact hactive
  · have hwaiting := waiting_reply s b.cmd b0 b1 now
    refine hwaiting.trans ?_
    by_cases hb : b = a
    · subst hb
      rw [if_pos hlast, hsince, decide_eq_false (UInt32.not_lt.mpr htime), Bool.and_false]
    · rw [if_neg fun heq => hb (cmd_injective (Option.some.inj (heq.symm.trans hlast)))]
      exact h.others b hb
  · rw [hdecode, hlast]
    exact commandEffects_decode _ a b0 b1

theorem commandEffects_timeout (a : AppCmd) :
    commandEffects (timeoutOutcome a.cmd) = [toldTimeout a] := by
  cases a <;> rfl

theorem link_expired (h : Asked (s.controler, s.cmdWait) unlocked a t₀) (htime : 2000 < now - t₀) :
    Idle ((checkTimeoutTimerCb s now).1.controler, (checkTimeoutTimerCb s now).1.cmdWait) unlocked ∧
      commandEffects (checkTimeoutTimerCb s now).2 = [toldTimeout a] := by
  have hcontroler : (checkTimeoutTimerCb s now).1.controler = s.controler := controler_tick s now
  refine ⟨⟨?_, ?_, fun b => ?_⟩, ?_⟩
  · rw [hcontroler]
    exact h.handshake
  · rw [hcontroler]
    exact h.unlocked
  · have hwaiting := waiting_tick s b now
    refine hwaiting.trans ?_
    by_cases hb : b = a
    · rw [decide_eq_true ((h.expired_iff b).mpr ⟨hb, htime⟩), Bool.not_true, Bool.and_false]
    · rw [show (s.cmdWait b.cmd).waiting = false from h.others b hb, Bool.false_and]
  · have hone := @checkTimeouts_one now a.cmd timedCmds { s with v3 := (v3TimeoutCheck s.v3 now).1 }
      nodup_timedCmds (cmd_mem_timedCmds a) ((h.expired_iff a).mpr ⟨rfl, htime⟩)
        fun d hd hne hexp => by
        obtain ⟨b, rfl⟩ := cmd_of_mem_timedCmds hd
        exact hne (congrArg AppCmd.cmd ((h.expired_iff b).mp hexp).1)
    show commandEffects ((v3TimeoutCheck s.v3 now).2 ++ (checkTimeouts now timedCmds _).2) = _
    rw [hone, commandEffects_append, commandEffects_foreign (foreign_v3Timeout _ now),
      commandEffects_timeout, List.nil_append]

end Link

end BleHidUart.Firmware.Link
