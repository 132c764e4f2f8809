import BleHidUart.Lib.Run
import BleHidUart.V2.Bridge

/-!
# What one event does to the V2 bridge

An outcome is a notification `AA cmd … 55` to the app. The lemmas say for each event what becomes of
the state, which commands are sent to the controller and which outcomes are emitted; nothing after
this module unfolds the bridge.

* `v2Step_reply`, `outcomes_reply`: a reply is decoded by the command sent last.
* `waiting_tick`, `outcomes_tick`: a round of the timer gives one outcome for each expired command.
* `app_sends`, `app_answers`, `appCmd_cases`: a command of the app is sent on or answered at once.
* `protocol_cases`: any other bytes of the controller than two change nothing.
-/

namespace BleHidUart.V2.Moves

open BleHidUart.Board BleHidUart.Lib.Word BleHidUart.V2.Bridge BleHidUart.V3.Bridge

/-- The outcomes among the effects. -/
def outcomes (fx : List Effect) : List (List UInt8) :=
  fx.filterMap fun
    | .notify d _ => if byteAt d 0 = 0xAA then some d else none
    | _ => none

@[simp] theorem outcomes_append (fx gx : List Effect) :
    outcomes (fx ++ gx) = outcomes fx ++ outcomes gx := List.filterMap_append

/-- The command the controller reads from 20 bytes. -/
def commandOf (d : List UInt8) : Option BleCmd :=
  [.handshakeRsp, .unlockStatusRsp, .unlockRsp, .lockRsp, .faultQueryRsp].find?
    fun c => cmdBytes c == d

theorem commandOf_cmdBytes (c : BleCmd) : commandOf (cmdBytes c) = some c := by
  cases c <;> decide

theorem cmdBytes_injective : Function.Injective cmdBytes := by
  intro c d h
  have hcmd := congrArg commandOf h
  rw [commandOf_cmdBytes, commandOf_cmdBytes] at hcmd
  exact Option.some.inj hcmd

/-- The commands for the controller among the effects. -/
def sentCmds (fx : List Effect) : List BleCmd :=
  fx.filterMap fun
    | .uart d => commandOf d
    | _ => none

@[simp] theorem sentCmds_append (fx gx : List Effect) :
    sentCmds (fx ++ gx) = sentCmds fx ++ sentCmds gx := List.filterMap_append

/-! ### Replies -/

/-- The outcome a reply `b0 b1` decodes to, by the command sent last. -/
def replyOutcome (cmdType : Option BleCmd) (b0 b1 : UInt8) : Option (List UInt8) :=
  match cmdType with
  | some .unlockStatusRsp =>
    if b0 = 0x69 ∧ b1 = 0x96 then some [0xAA, appCmdQueryUnlockRsp, 0x00, 0x55]
    else if b0 = 0x96 ∧ b1 = 0x69 then some [0xAA, appCmdQueryUnlockRsp, 0x01, 0x55]
    else none
  | some .unlockRsp =>
    if b0 = 0x5A ∧ b1 = 0xA5 then some [0xAA, appCmdUnlockRsp, 0x00, 0x55] else none
  | some .lockRsp =>
    if b0 = 0x5A ∧ b1 = 0xA5 then some [0xAA, appCmdLockRsp, 0x00, 0x55] else none
  | some .faultQueryRsp => some [0xAA, appCmdFaultQueryRsp, b0, b1, 0x55]
  | some .handshakeRsp | none => none

variable {s : BleState} {b0 b1 : UInt8} {now : UInt32}

/-- A reply of two bytes is decoded by the last command, after its waiting flag is cleared. -/
theorem v2Step_reply (s : BleState) (b0 b1 : UInt8) (now : UInt32) :
    v2Step s (.reply b0 b1 now) =
      decodeReply (clearWaiting s s.controler.lastCmdType now) s.controler.lastCmdType b0 b1 := rfl

theorem outcomes_decodeReply (s : BleState) (t : Option BleCmd) (b0 b1 : UInt8) :
    outcomes (decodeReply s t b0 b1).2 = (replyOutcome t b0 b1).toList := by
  rcases t with _ | c
  · rfl
  · cases c <;> simp only [decodeReply, replyOutcome] <;> split_ifs <;> rfl

theorem decodeReply_frame (s : BleState) (t : Option BleCmd) (b0 b1 : UInt8) :
    (decodeReply s t b0 b1).1.cmdWait = s.cmdWait ∧
      (decodeReply s t b0 b1).1.controler.lastCmdType = s.controler.lastCmdType := by
  rcases t with _ | c
  · exact ⟨rfl, rfl⟩
  · cases c with
    | faultQueryRsp => exact ⟨rfl, rfl⟩
    | handshakeRsp | unlockStatusRsp | unlockRsp | lockRsp =>
      simp only [decodeReply]
      split_ifs <;> exact ⟨rfl, rfl⟩

theorem clearWaiting_controler (s : BleState) (t : Option BleCmd) (now : UInt32) :
    (clearWaiting s t now).controler = s.controler := by
  rcases t with _ | c
  · rfl
  · simp only [clearWaiting]
    split_ifs <;> rfl

theorem clearWaiting_of_ne {t : Option BleCmd} {c : BleCmd} (h : t ≠ some c) :
    (clearWaiting s t now).cmdWait c = s.cmdWait c := by
  rcases t with _ | d
  · rfl
  · have hne : c ≠ d := fun he => h (by rw [he])
    simp only [clearWaiting]
    split_ifs
    · exact Function.update_of_ne hne _ _
    · rfl

theorem clearWaiting_self (s : BleState) (c : BleCmd) (now : UInt32) :
    ((clearWaiting s (some c) now).cmdWait c).waiting =
      ((s.cmdWait c).waiting && decide (2000 < now - (s.cmdWait c).sendTimeMs)) := by
  simp only [clearWaiting]
  by_cases h : (s.cmdWait c).waiting ∧ now - (s.cmdWait c).sendTimeMs ≤ 2000
  · rw [if_pos h, decide_eq_false (UInt32.not_lt.mpr h.2), Bool.and_false]
    simp only [Function.update_self]
  · rw [if_neg h]
    cases hw : (s.cmdWait c).waiting with
    | false => rfl
    | true =>
      have hlate : 2000 < now - (s.cmdWait c).sendTimeMs := UInt32.not_le.mp fun hle => h ⟨hw, hle⟩
      rw [decide_eq_true hlate]
      rfl

theorem waiting_reply (s : BleState) (c : BleCmd) (b0 b1 : UInt8) (now : UInt32) :
    ((v2Step s (.reply b0 b1 now)).1.cmdWait c).waiting =
      if s.controler.lastCmdType = some c then
        (s.cmdWait c).waiting && decide (2000 < now - (s.cmdWait c).sendTimeMs)
      else (s.cmdWait c).waiting := by
  rw [v2Step_reply, (decodeReply_frame _ _ _ _).1]
  by_cases h : s.controler.lastCmdType = some c
  · rw [if_pos h, h, clearWaiting_self]
  · rw [if_neg h, clearWaiting_of_ne h]

theorem outcomes_reply (s : BleState) (b0 b1 : UInt8) (now : UInt32) :
    outcomes (v2Step s (.reply b0 b1 now)).2 =
      (replyOutcome s.controler.lastCmdType b0 b1).toList := by
  rw [v2Step_reply, outcomes_decodeReply]

theorem cmd_of_replyOutcome {t : Option BleCmd} {d : List UInt8}
    (h : replyOutcome t b0 b1 = some d) : ∃ a : AppCmd, t = some a.cmd := by
  rcases t with _ | c
  · cases h
  · cases c with
    | handshakeRsp => cases h
    | unlockStatusRsp => exact ⟨.queryUnlock, rfl⟩
    | unlockRsp => exact ⟨.unlock, rfl⟩
    | lockRsp => exact ⟨.lock, rfl⟩
    | faultQueryRsp => exact ⟨.faultQuery, rfl⟩

theorem code_of_replyOutcome {a : AppCmd} {d : List UInt8}
    (h : replyOutcome (some a.cmd) b0 b1 = some d) : byteAt d 1 = a.code := by
  cases a with
  | queryUnlock =>
    simp only [replyOutcome, AppCmd.cmd] at h
    split_ifs at h <;> rw [← Option.some.inj h] <;> rfl
  | unlock =>
    simp only [replyOutcome, AppCmd.cmd] at h
    split_ifs at h
    rw [← Option.some.inj h]
    rfl
  | lock =>
    simp only [replyOutcome, AppCmd.cmd] at h
    split_ifs at h
    rw [← Option.some.inj h]
    rfl
  | faultQuery =>
    rw [← Option.some.inj h]
    rfl

theorem sentCmds_reply (s : BleState) (b0 b1 : UInt8) (now : UInt32) :
    sentCmds (v2Step s (.reply b0 b1 now)).2 = [] := by
  rw [v2Step_reply]
  rcases s.controler.lastCmdType with _ | c
  · rfl
  · cases c <;> simp only [decodeReply] <;> split_ifs <;> rfl

theorem lastCmdType_reply (s : BleState) (b0 b1 : UInt8) (now : UInt32) :
    (v2Step s (.reply b0 b1 now)).1.controler.lastCmdType = s.controler.lastCmdType := by
  rw [v2Step_reply, (decodeReply_frame _ _ _ _).2, clearWaiting_controler]

theorem clearWaiting_v3 (s : BleState) (t : Option BleCmd) (now : UInt32) :
    (clearWaiting s t now).v3 = s.v3 := by
  unfold clearWaiting
  split
  · rfl
  · split_ifs <;> rfl

theorem decodeReply_v3 (s : BleState) (t : Option BleCmd) (b0 b1 : UInt8) :
    (decodeReply s t b0 b1).1.v3 = s.v3 := by
  rcases t with _ | c
  · rfl
  · cases c <;> simp only [decodeReply] <;> split_ifs <;> rfl

theorem sendTime_clearWaiting (s : BleState) (t : Option BleCmd) (now : UInt32) (c : BleCmd) :
    ((clearWaiting s t now).cmdWait c).sendTimeMs = (s.cmdWait c).sendTimeMs := by
  rcases t with _ | d
  · rfl
  · simp only [clearWaiting]
    split_ifs
    · by_cases hc : c = d
      · subst hc
        simp only [Function.update_self]
      · simp only [Function.update_of_ne hc]
    · rfl

theorem protocol_cases (s : BleState) (data : List UInt8) (now : UInt32) :
    (∃ b0 b1, data = [b0, b1] ∧ handleProtocolData s data now =
      decodeReply (clearWaiting s s.controler.lastCmdType now) s.controler.lastCmdType b0 b1) ∨
    data.length ≠ 2 ∧ (handleProtocolData s data now).1 = s ∧
      sentCmds (handleProtocolData s data now).2 = [] := by
  by_cases htwo : data.length = 2
  · obtain ⟨b0, b1, rfl⟩ := List.length_eq_two.mp htwo
    exact .inl ⟨b0, b1, rfl, v2Step_reply s b0 b1 now⟩
  · refine .inr ⟨htwo, ?_⟩
    unfold handleProtocolData handleMcuReplydata
    split_ifs
    · exact ⟨rfl, rfl⟩
    · exact ⟨rfl, rfl⟩
    · split
      · exact absurd rfl htwo
      · exact ⟨rfl, rfl⟩

theorem protocol_frame (s : BleState) (data : List UInt8) (now : UInt32) :
    (handleProtocolData s data now).1.v3 = s.v3 ∧
      (handleProtocolData s data now).1.cmdWait =
        if data.length = 2 then (clearWaiting s s.controler.lastCmdType now).cmdWait
          else s.cmdWait := by
  rcases protocol_cases s data now with ⟨b0, b1, rfl, hstep⟩ | ⟨htwo, hsame, -⟩
  · rw [if_pos (show [b0, b1].length = 2 from rfl), hstep, decodeReply_v3, clearWaiting_v3,
      (decodeReply_frame _ _ _ _).1]
    exact ⟨rfl, rfl⟩
  · rw [if_neg htwo, hsame]
    exact ⟨rfl, rfl⟩

/-! ### The timer -/

/-- The command waits for more than 2000 ms. -/
def Expired (s : BleState) (now : UInt32) (c : BleCmd) : Prop :=
  (s.cmdWait c).waiting ∧ 2000 < now - (s.cmdWait c).sendTimeMs

instance (s : BleState) (now : UInt32) (c : BleCmd) : Decidable (Expired s now c) :=
  inferInstanceAs (Decidable (_ ∧ _ < _))

theorem checkTimeouts_controler (now : UInt32) :
    ∀ (cs : List BleCmd) (s : BleState), (checkTimeouts now cs s).1.controler = s.controler
  | [], _ => rfl
  | c :: cs, s => by
    simp only [checkTimeouts]
    split_ifs
    · exact checkTimeouts_controler now cs _
    · exact checkTimeouts_controler now cs s

theorem expired_update {c d : BleCmd} (h : c ≠ d) (w : CmdWait) :
    Expired { s with cmdWait := Function.update s.cmdWait d w } now c ↔ Expired s now c := by
  simp only [Expired, Function.update_of_ne h]

theorem waiting_checkTimeouts (now : UInt32) (c : BleCmd) :
    ∀ (cs : List BleCmd) (s : BleState), cs.Nodup → ((checkTimeouts now cs s).1.cmdWait c).waiting =
      ((s.cmdWait c).waiting && !decide (c ∈ cs ∧ Expired s now c))
  | [], s, _ => by simp [checkTimeouts]
  | d :: cs, s, h => by
    obtain ⟨hd, hcs⟩ := List.nodup_cons.mp h
    simp only [checkTimeouts]
    by_cases hex : (s.cmdWait d).waiting ∧ 2000 < now - (s.cmdWait d).sendTimeMs
    · rw [if_pos hex]
      simp only
      rw [waiting_checkTimeouts now c cs _ hcs]
      by_cases hc : c = d
      · have hexp : Expired s now c := by rw [hc]; exact hex
        subst hc
        simp [Function.update_self, hexp]
      · simp only [expired_update hc, Function.update_of_ne hc, List.mem_cons, hc, false_or]
    · rw [if_neg hex, waiting_checkTimeouts now c cs s hcs]
      by_cases hc : c = d
      · have hexp : ¬ Expired s now c := by rw [hc]; exact hex
        simp [hexp]
      · simp only [List.mem_cons, hc, false_or]

/-- The outcomes of the loop: one for each expired command. -/
theorem outcomes_checkTimeouts (now : UInt32) : ∀ (cs : List BleCmd) (s : BleState), cs.Nodup →
    outcomes (checkTimeouts now cs s).2 =
      ((cs.filter fun c => decide (Expired s now c)).map fun c =>
        outcomes (timeoutOutcome c)).flatten
  | [], s, _ => rfl
  | d :: cs, s, h => by
    obtain ⟨hd, hcs⟩ := List.nodup_cons.mp h
    simp only [checkTimeouts]
    by_cases hex : Expired s now d
    · have hex' : (s.cmdWait d).waiting ∧ 2000 < now - (s.cmdWait d).sendTimeMs := hex
      rw [if_pos hex']
      simp only [outcomes_append]
      rw [outcomes_checkTimeouts now cs _ hcs, List.filter_cons_of_pos (by simpa using hex)]
      rw [List.filter_congr fun c hc => decide_eq_decide.mpr
        (expired_update (fun he : c = d => hd (by rwa [← he])) _)]
      rfl
    · have hex' : ¬ ((s.cmdWait d).waiting ∧ 2000 < now - (s.cmdWait d).sendTimeMs) := hex
      rw [if_neg hex', outcomes_checkTimeouts now cs s hcs,
        List.filter_cons_of_neg (by simpa using hex)]

/-- The commands the timer looks at. -/
def timedCmds : List BleCmd := [.unlockStatusRsp, .unlockRsp, .lockRsp, .faultQueryRsp]

theorem nodup_timedCmds : timedCmds.Nodup := by decide

theorem cmd_mem_timedCmds (a : AppCmd) : a.cmd ∈ timedCmds := by cases a <;> decide

theorem cmd_of_mem_timedCmds {c : BleCmd} (h : c ∈ timedCmds) : ∃ a : AppCmd, a.cmd = c := by
  cases c with
  | handshakeRsp => exact absurd h (by decide)
  | unlockStatusRsp => exact ⟨.queryUnlock, rfl⟩
  | unlockRsp => exact ⟨.unlock, rfl⟩
  | lockRsp => exact ⟨.lock, rfl⟩
  | faultQueryRsp => exact ⟨.faultQuery, rfl⟩

theorem code_injective : Function.Injective AppCmd.code := by
  intro a b h
  cases a <;> cases b <;> first | rfl | exact absurd h (by decide)

theorem timeoutOutcome_cmd (a : AppCmd) :
    ∃ d, outcomes (timeoutOutcome a.cmd) = [d] ∧ byteAt d 1 = a.code := by
  cases a <;> exact ⟨_, rfl, rfl⟩

theorem code_of_timeoutOutcome {c : BleCmd} {d : List UInt8} (h : d ∈ outcomes (timeoutOutcome c)) :
    ∃ a : AppCmd, a.cmd = c ∧ byteAt d 1 = a.code := by
  have hmem : c ∈ timedCmds := by
    cases c with
    | handshakeRsp => cases h
    | unlockStatusRsp | unlockRsp | lockRsp | faultQueryRsp => decide
  obtain ⟨a, rfl⟩ := cmd_of_mem_timedCmds hmem
  obtain ⟨e, he, hcode⟩ := timeoutOutcome_cmd a
  rw [he] at h
  obtain rfl := List.mem_singleton.mp h
  exact ⟨a, rfl, hcode⟩

theorem outcomes_v3TimeoutCheck (v : V3BridgeState) (now : UInt32) :
    outcomes (v3TimeoutCheck v now).2 = [] := by
  unfold v3TimeoutCheck
  split_ifs <;> rfl

theorem waiting_tick (s : BleState) (a : AppCmd) (now : UInt32) :
    ((v2Step s (.tick now)).1.cmdWait a.cmd).waiting =
      ((s.cmdWait a.cmd).waiting && !decide (Expired s now a.cmd)) := by
  have h := waiting_checkTimeouts now a.cmd timedCmds { s with v3 := (v3TimeoutCheck s.v3 now).1 }
    nodup_timedCmds
  simp only [cmd_mem_timedCmds, true_and] at h
  exact h

theorem outcomes_tick (s : BleState) (now : UInt32) : outcomes (v2Step s (.tick now)).2 =
    ((timedCmds.filter fun c => decide (Expired s now c)).map
      fun c => outcomes (timeoutOutcome c)).flatten := by
  have h := outcomes_checkTimeouts now timedCmds { s with v3 := (v3TimeoutCheck s.v3 now).1 }
    nodup_timedCmds
  have hsplit : outcomes (v2Step s (.tick now)).2 = outcomes (v3TimeoutCheck s.v3 now).2 ++
      outcomes (checkTimeouts now timedCmds { s with v3 := (v3TimeoutCheck s.v3 now).1 }).2 :=
    outcomes_append _ _
  rw [hsplit, outcomes_v3TimeoutCheck, h]
  rfl

theorem sendTime_checkTimeouts (now : UInt32) (c : BleCmd) : ∀ (cs : List BleCmd) (s : BleState),
    ((checkTimeouts now cs s).1.cmdWait c).sendTimeMs = (s.cmdWait c).sendTimeMs
  | [], _ => rfl
  | d :: cs, s => by
    simp only [checkTimeouts]
    split_ifs
    · rw [sendTime_checkTimeouts now c cs]
      by_cases hc : c = d
      · subst hc
        simp only [Function.update_self]
      · simp only [Function.update_of_ne hc]
    · exact sendTime_checkTimeouts now c cs s

theorem checkTimeouts_v3 (now : UInt32) :
    ∀ (cs : List BleCmd) (s : BleState), (checkTimeouts now cs s).1.v3 = s.v3
  | [], _ => rfl
  | c :: cs, s => by
    simp only [checkTimeouts]
    split_ifs
    · exact checkTimeouts_v3 now cs _
    · exact checkTimeouts_v3 now cs s

theorem sentCmds_checkTimeouts (now : UInt32) :
    ∀ (cs : List BleCmd) (s : BleState), sentCmds (checkTimeouts now cs s).2 = []
  | [], _ => rfl
  | c :: cs, s => by
    have hc : sentCmds (timeoutOutcome c) = [] := by cases c <;> rfl
    simp only [checkTimeouts]
    split_ifs
    · simp only [sentCmds_append, hc, List.nil_append]
      exact sentCmds_checkTimeouts now cs _
    · exact sentCmds_checkTimeouts now cs s

theorem sentCmds_tick (s : BleState) (now : UInt32) : sentCmds (v2Step s (.tick now)).2 = [] := by
  have hv3 : sentCmds (v3TimeoutCheck s.v3 now).2 = [] := by
    unfold v3TimeoutCheck
    split_ifs <;> rfl
  have hsplit : sentCmds (v2Step s (.tick now)).2 = sentCmds (v3TimeoutCheck s.v3 now).2 ++
      sentCmds (checkTimeouts now timedCmds { s with v3 := (v3TimeoutCheck s.v3 now).1 }).2 :=
    sentCmds_append _ _
  rw [hsplit, hv3, sentCmds_checkTimeouts]
  rfl

theorem controler_tick (s : BleState) (now : UInt32) :
    (v2Step s (.tick now)).1.controler = s.controler := checkTimeouts_controler now timedCmds _

/-! ### Commands of the app -/

/-- The command of the app is sent on to the controller. -/
def Sends (s : BleState) (a : AppCmd) : Prop :=
  s.controler.handshakeOk ∧ ¬ (a = .unlock ∧ s.controler.activeOk)

instance (s : BleState) (a : AppCmd) : Decidable (Sends s a) :=
  inferInstanceAs (Decidable (_ ∧ ¬ (_ ∧ _)))

/-- The state after a command was sent. -/
def sent (s : BleState) (c : BleCmd) (now : UInt32) : BleState :=
  { s with
    controler := { s.controler with lastCmdType := some c }
    cmdWait := Function.update s.cmdWait c
      { s.cmdWait c with waiting := true, sendTimeMs := now } }

theorem appCmd_cases (s : BleState) (appCmd : UInt8) (frame : List UInt8) (now : UInt32) :
    (∃ c, c ≠ .handshakeRsp ∧
      handleAppCmdAndReply s appCmd frame now = (sent s c now, [.uart (cmdBytes c)])) ∨
    (handleAppCmdAndReply s appCmd frame now).1 = s ∧
      ∀ d, .uart d ∉ (handleAppCmdAndReply s appCmd frame now).2 := by
  have hsend : ∀ c, c ≠ .handshakeRsp →
      (∃ c', c' ≠ .handshakeRsp ∧
        bleSendProtocolCmd s c now = (sent s c' now, [.uart (cmdBytes c')])) ∨
      (bleSendProtocolCmd s c now).1 = s ∧ ∀ d, .uart d ∉ (bleSendProtocolCmd s c now).2 := by
    intro c hc
    unfold bleSendProtocolCmd
    split_ifs
    · exact .inr ⟨rfl, fun _ => List.not_mem_nil⟩
    · exact .inl ⟨c, hc, rfl⟩
  simp only [handleAppCmdAndReply]
  split_ifs
  all_goals first
    | exact hsend _ (by decide)
    | exact .inr ⟨rfl, fun d hd => by simp [replyAppStatus] at hd⟩

theorem app_sends {a : AppCmd} (h : Sends s a) (now : UInt32) :
    v2Step s (.app a now) = (sent s a.cmd now, [.uart (cmdBytes a.cmd)]) := by
  obtain ⟨hok, hact⟩ := h
  have hsend : ∀ c, bleSendProtocolCmd s c now = (sent s c now, [.uart (cmdBytes c)]) := fun c =>
    if_neg fun hno => hno.2 hok
  cases a with
  | queryUnlock =>
    have hstep : v2Step s (.app .queryUnlock now) = if ¬ s.controler.handshakeOk
        then (s, [replyAppStatus appCmdQueryUnlockRsp 0x02])
        else bleSendProtocolCmd s .unlockStatusRsp now := rfl
    rw [hstep, if_neg (not_not.mpr hok), hsend]
    rfl
  | unlock =>
    have hstep : v2Step s (.app .unlock now) = if s.controler.activeOk
        then (s, [.notify [0xAA, 0x02, 0x02, 0x55] 4]) else bleSendProtocolCmd s .unlockRsp now :=
      rfl
    rw [hstep, if_neg fun ha => hact ⟨rfl, ha⟩, hsend]
    rfl
  | lock => exact hsend .lockRsp
  | faultQuery => exact hsend .faultQueryRsp

theorem sentCmds_app {a : AppCmd} (h : Sends s a) (now : UInt32) :
    sentCmds (v2Step s (.app a now)).2 = [a.cmd] := by
  rw [app_sends h]
  simp only [sentCmds, List.filterMap_cons, commandOf_cmdBytes, List.filterMap_nil]

/-- What the app is told of a command that is not sent: a query before the handshake, an unlock
command when the flag says unlocked; nothing otherwise. -/
def localAnswer (s : BleState) : AppCmd → List Effect
  | .queryUnlock => [replyAppStatus appCmdQueryUnlockRsp 0x02]
  | .unlock => if s.controler.activeOk then [.notify [0xAA, 0x02, 0x02, 0x55] 4] else []
  | .lock | .faultQuery => []

theorem app_answers {a : AppCmd} (h : ¬ Sends s a) (now : UInt32) :
    v2Step s (.app a now) = (s, localAnswer s a) := by
  have hsend : ∀ c, c ≠ .handshakeRsp → ¬ s.controler.handshakeOk →
      bleSendProtocolCmd s c now = (s, []) := fun c hc hno => if_pos ⟨hc, hno⟩
  unfold Sends at h
  cases a with
  | queryUnlock =>
    have hno : ¬ s.controler.handshakeOk := fun hok => h ⟨hok, by simp⟩
    have hstep : v2Step s (.app .queryUnlock now) = if ¬ s.controler.handshakeOk
        then (s, [replyAppStatus appCmdQueryUnlockRsp 0x02])
        else bleSendProtocolCmd s .unlockStatusRsp now := rfl
    rw [hstep, if_pos hno]
    rfl
  | unlock =>
    have hstep : v2Step s (.app .unlock now) = if s.controler.activeOk
        then (s, [.notify [0xAA, 0x02, 0x02, 0x55] 4]) else bleSendProtocolCmd s .unlockRsp now :=
      rfl
    by_cases hact : s.controler.activeOk
    · rw [hstep, if_pos hact, localAnswer, if_pos hact]
    · rw [hstep, if_neg hact, hsend _ (by simp) fun hok => h ⟨hok, fun ha => hact ha.2⟩,
        localAnswer, if_neg hact]
  | lock =>
    have hstep : v2Step s (.app .lock now) = bleSendProtocolCmd s .lockRsp now := rfl
    exact hstep.trans (hsend _ (by simp) fun hok => h ⟨hok, by simp⟩)
  | faultQuery =>
    have hstep : v2Step s (.app .faultQuery now) = bleSendProtocolCmd s .faultQueryRsp now := rfl
    exact hstep.trans (hsend _ (by simp) fun hok => h ⟨hok, by simp⟩)

theorem length_outcomes_localAnswer (s : BleState) (a : AppCmd) :
    (outcomes (localAnswer s a)).length ≤ 1 := by
  cases a with
  | queryUnlock => exact le_rfl
  | unlock =>
    unfold localAnswer
    split_ifs
    · exact le_rfl
    · exact Nat.zero_le _
  | lock | faultQuery => exact Nat.zero_le _

theorem sentCmds_localAnswer (s : BleState) (a : AppCmd) : sentCmds (localAnswer s a) = [] := by
  cases a with
  | unlock =>
    unfold localAnswer
    split_ifs <;> rfl
  | queryUnlock | lock | faultQuery => rfl

theorem waiting_sent (s : BleState) (c d : BleCmd) (now : UInt32) :
    ((sent s c now).cmdWait d).waiting = if d = c then true else (s.cmdWait d).waiting := by
  unfold sent
  by_cases h : d = c
  · subst h
    simp
  · simp [h]

/-- The state after the handshake with the controller. -/
def afterHandshake : BleState :=
  { controler := { handshakeOk := true, lastCmdType := some .handshakeRsp } }

end BleHidUart.V2.Moves
