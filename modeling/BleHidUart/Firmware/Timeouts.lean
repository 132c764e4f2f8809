import BleHidUart.Firmware.Calls
import BleHidUart.Firmware.Requests
import BleHidUart.V2.Moves

/-!
# What a timeout says

The timer reports a V3 request without a reply after 800 ms, and a V2 command without a reply after
2000 ms. Both times are wrapped differences of two readings of a 32-bit clock. The pending request,
and the start time of each waiting command, are slots that some calls fill and others empty; by the
slot rule a report names the last call that filled its slot, and no call since has emptied it.

`timeouts_sound` says so of every run of the firmware, whatever its clock reads.
-/

namespace BleHidUart.Firmware.Timeouts

open BleHidUart.Board BleHidUart.Firmware.Calls BleHidUart.Firmware.Machine
open BleHidUart.Firmware.Requests BleHidUart.Lib.Run BleHidUart.Lib.Word BleHidUart.V2.Bridge
open BleHidUart.V2.Moves BleHidUart.V3.Bridge BleHidUart.V3.Handlers

variable (addr : List UInt8)

/-! ### Reports without a reply -/

/-- The CRC of a read or write frame is right. -/
abbrev FrameOk (frame : List UInt8) : Prop := v3CrcVerify frame v3CrcCountNormal v3CrcOffsetNormal

/-- The call forwards a request of the app with the command `cmd` and the group `grp`, at the time
`t₀`. -/
def Forwards (cmd grp : UInt8) (t₀ : UInt32) (f : FirmwareState) (c : Call) : Prop :=
  ∃ frame, c = .parsed (.readWrite frame cmd) t₀ ∧ byteAt frame 3 = grp ∧ FrameOk frame ∧
    .uart (frame.take v3FrameSizeNormal) ∈ (v3HandleReadWrite f.bridge.ble.v3 frame cmd t₀).2

/-- The error frames that `V3_timeout_check` sends. -/
def noReplies (f : FirmwareState) (now : UInt32) : List (List UInt8 × ℕ) :=
  notifications (v3TimeoutCheck f.bridge.ble.v3 now).2

/-- The call forwards no request, is no reply with the right CRC, and reports no missing reply. -/
def KeepsPending (f : FirmwareState) : Call → Prop
  | .parsed (.readWrite frame _) _ => ¬ FrameOk frame
  | .parsed (.mcuReply frame _) _ => ¬ FrameOk frame
  | .timeoutTick now => noReplies f now = []
  | _ => True

/-- Each error frame of `V3_timeout_check` names the command class and the group of the last
forwarded request, which was forwarded at least 800 ms ago; since then there was no reply with the
right CRC and no other such error frame. -/
def NoRepliesSound (s : FirmwareState) (cs : List Call) : Prop :=
  ∀ pre t post, cs = pre ++ .timeoutTick t :: post →
    ∀ n ∈ noReplies (final (singleStep addr) s pre) t, ∃ cmd grp t₀ ys c zs,
      PutBy (singleStep addr) (Forwards cmd grp t₀) KeepsPending s pre ys c zs ∧
      n = (v3BuildErrorReply (errorCmd cmd) grp v3ErrMcuNoReply, v3FrameSizeError) ∧ 800 ≤ t - t₀

/-- The call sends the command at the time `t₀`. -/
def Sends (cmd : BleCmd) (t₀ : UInt32) (f : FirmwareState) (c : Call) : Prop :=
  ∃ appCmd frame, c = .parsed (.appCmd appCmd frame) t₀ ∧
    .uart (cmdBytes cmd) ∈ (handleAppCmdAndReply f.bridge.ble appCmd frame t₀).2

/-- The round of the timer emits the timeout outcome of the command. -/
def TimesOut (cmd : BleCmd) (f : FirmwareState) (now : UInt32) : Prop :=
  ∃ d ∈ outcomes (timeoutOutcome cmd), d ∈ outcomes (checkTimeoutTimerCb f.bridge.ble now).2

/-- The call does not send the command, it is no timeout of it, and no reply of two bytes within
2000 ms of `t₀` while it is the last command. -/
def KeepsWaiting (cmd : BleCmd) (t₀ : UInt32) (f : FirmwareState) : Call → Prop
  | .parsed (.appCmd appCmd frame) now =>
    .uart (cmdBytes cmd) ∉ (handleAppCmdAndReply f.bridge.ble appCmd frame now).2
  | .timeoutTick now => ¬ TimesOut cmd f now
  | .protocolData data now => ¬ (data.length = 2 ∧ f.bridge.ble.controler.lastCmdType = some cmd ∧
      now - t₀ ≤ 2000)
  | _ => True

/-- Each timeout outcome of a command follows the last send of it, more than 2000 ms ago; since then
there was no timeout of it and no reply in time while it was the last command. -/
def OutcomesSound (s : FirmwareState) (cs : List Call) : Prop :=
  ∀ pre t post, cs = pre ++ .timeoutTick t :: post →
    ∀ cmd, TimesOut cmd (final (singleStep addr) s pre) t → ∃ t₀ ys c zs,
      PutBy (singleStep addr) (Sends cmd t₀) (KeepsWaiting cmd t₀) s pre ys c zs ∧ 2000 < t - t₀

/-! ### What a call does to the pending request -/

theorem handshakeTick_frame (f : FirmwareState) (now : UInt32) :
    (singleStep addr f (.handshakeTick now)).1.bridge.ble.v3 = f.bridge.ble.v3 ∧
      ∀ c, c ≠ .handshakeRsp →
        (singleStep addr f (.handshakeTick now)).1.bridge.ble.cmdWait c =
          f.bridge.ble.cmdWait c := by
  rcases handshakeTick_cases addr f now with ⟨-, -, hstep⟩ | ⟨hsame, -⟩
  · rw [singleStep, hstep]
    exact ⟨rfl, fun c hc => Function.update_of_ne hc _ _⟩
  · rw [singleStep, hsame]
    exact ⟨rfl, fun _ _ => rfl⟩

theorem v3_singleStep (f : FirmwareState) (c : Call) : (singleStep addr f c).1.bridge.ble.v3 =
    match c with
    | .parsed (.readWrite frame cmd) now => (v3HandleReadWrite f.bridge.ble.v3 frame cmd now).1
    | .parsed (.mcuReply frame cmd) _ => (v3HandleMcuReply f.bridge.ble.v3 frame cmd).1
    | .timeoutTick now => (v3TimeoutCheck f.bridge.ble.v3 now).1
    | _ => f.bridge.ble.v3 := by
  cases c with
  | parsed k now =>
    cases k with
    | appCmd appCmd frame =>
      rcases appCmd_cases f.bridge.ble appCmd frame now with ⟨c, -, hsent⟩ | ⟨hsame, -⟩
      · exact congrArg (·.1.v3) hsent
      · exact congrArg (·.v3) hsame
    | handshake | readWrite | mcuReply | otaStart | otaData | packageRetry | eraseRetry => rfl
  | protocolData data now => exact (protocol_frame f.bridge.ble data now).1
  | handshakeTick now => exact (handshakeTick_frame addr f now).1
  | timeoutTick now => exact checkTimeouts_v3 now _ _
  | ctrlReply | ucCmd | receiver | mainLoop => rfl

/-- The pending request: its command, its group and when it was forwarded. -/
def pendingIn (s : V3BridgeState) : Option (UInt8 × UInt8 × UInt32) :=
  if s.waitingMcuReply then some (s.pendingCmd, s.pendingGrp, s.sendTimeMs) else none

theorem pendingIn_readWrite (s : V3BridgeState) (frame : List UInt8) (cmd : UInt8) (now : UInt32) :
    pendingIn (v3HandleReadWrite s frame cmd now).1 =
      if FrameOk frame then some (cmd, byteAt frame 3, now) else pendingIn s := by
  by_cases hcrc : FrameOk frame
  · rw [if_pos hcrc, v3HandleReadWrite, if_neg (not_not.mpr hcrc)]
    rfl
  · rw [if_neg hcrc, v3HandleReadWrite, if_pos hcrc]

theorem pendingIn_mcuReply (s : V3BridgeState) (frame : List UInt8) (cmd : UInt8) :
    pendingIn (v3HandleMcuReply s frame cmd).1 = if FrameOk frame then none else pendingIn s := by
  by_cases hcrc : FrameOk frame
  · rw [if_pos hcrc, v3HandleMcuReply, if_neg (not_not.mpr hcrc)]
    rfl
  · rw [if_neg hcrc, v3HandleMcuReply, if_pos hcrc]

/-- The slot of the pending request. -/
def pendingRequest (f : FirmwareState) : Option (UInt8 × UInt8 × UInt32) :=
  pendingIn f.bridge.ble.v3

/-- **One call and the pending request**: what is pending after the call was forwarded by it, or was
pending before and the call keeps it. -/
theorem pendingRequest_step (f : FirmwareState) (c : Call) (r : UInt8 × UInt8 × UInt32)
    (h : pendingRequest (singleStep addr f c).1 = some r) :
    Forwards r.1 r.2.1 r.2.2 f c ∨ pendingRequest f = some r ∧ KeepsPending f c := by
  unfold pendingRequest at h ⊢
  rw [v3_singleStep] at h
  cases c with
  | parsed k now =>
    cases k with
    | readWrite frame cmd =>
      simp only [pendingIn_readWrite] at h
      by_cases hcrc : FrameOk frame
      · rw [if_pos hcrc] at h
        obtain rfl := Option.some.inj h
        refine .inl ⟨frame, rfl, rfl, hcrc, ?_⟩
        rw [v3HandleReadWrite, if_neg (not_not.mpr hcrc)]
        exact List.mem_singleton_self _
      · rw [if_neg hcrc] at h
        exact .inr ⟨h, hcrc⟩
    | mcuReply frame cmd =>
      simp only [pendingIn_mcuReply] at h
      by_cases hcrc : FrameOk frame
      · rw [if_pos hcrc] at h
        cases h
      · rw [if_neg hcrc] at h
        exact .inr ⟨h, hcrc⟩
    | appCmd | handshake | otaStart | otaData | packageRetry | eraseRetry => exact .inr ⟨h, trivial⟩
  | timeoutTick now =>
    rcases v3TimeoutCheck_cases f.bridge.ble.v3 now with ⟨-, hcheck⟩ | ⟨-, hcheck⟩
    · simp only [hcheck] at h
      cases h
    · simp only [hcheck] at h
      refine .inr ⟨h, ?_⟩
      show notifications (v3TimeoutCheck f.bridge.ble.v3 now).2 = []
      rw [hcheck]
      rfl
  | ctrlReply | protocolData | ucCmd | receiver | handshakeTick | mainLoop =>
    exact .inr ⟨h, trivial⟩

/-- **Error frames for a missing reply are sound**, in every run of calls before which nothing is
pending. -/
theorem noRepliesSound {s : FirmwareState} (h0 : pendingRequest s = none) (cs : List Call) :
    NoRepliesSound addr s cs := by
  rintro pre t post - n hn
  rcases v3TimeoutCheck_cases (final (singleStep addr) s pre).bridge.ble.v3 t with
    ⟨⟨hwait, hlate⟩, hcheck⟩ | ⟨-, hcheck⟩
  · unfold noReplies at hn
    rw [hcheck] at hn
    obtain rfl := List.mem_singleton.mp hn
    obtain ⟨ys, c, zs, hput⟩ := exists_putBy (pendingRequest_step addr) h0
      (show pendingRequest (final (singleStep addr) s pre) = some _ from if_pos hwait)
    exact ⟨_, _, _, ys, c, zs, hput, rfl, hlate⟩
  · unfold noReplies at hn
    rw [hcheck] at hn
    cases hn

/-! ### What a call does to a waiting command -/

theorem cmdWait_singleStep (f : FirmwareState) (c : Call) {cmd : BleCmd}
    (hcmd : cmd ≠ .handshakeRsp) : (singleStep addr f c).1.bridge.ble.cmdWait cmd =
      match c with
      | .parsed (.appCmd appCmd frame) now =>
        (handleAppCmdAndReply f.bridge.ble appCmd frame now).1.cmdWait cmd
      | .protocolData data now => (handleProtocolData f.bridge.ble data now).1.cmdWait cmd
      | .timeoutTick now => (checkTimeoutTimerCb f.bridge.ble now).1.cmdWait cmd
      | _ => f.bridge.ble.cmdWait cmd := by
  cases c with
  | parsed k now =>
    cases k with
    | appCmd | handshake | readWrite | mcuReply | otaStart | otaData | packageRetry | eraseRetry =>
      rfl
  | handshakeTick now => exact (handshakeTick_frame addr f now).2 cmd hcmd
  | protocolData | timeoutTick | ctrlReply | ucCmd | receiver | mainLoop => rfl

/-- The start time of a waiting command. -/
def sinceIn (w : CmdWait) : Option UInt32 := if w.waiting then some w.sendTimeMs else none

theorem sinceIn_eq_some {w : CmdWait} {t₀ : UInt32} :
    sinceIn w = some t₀ ↔ w.waiting = true ∧ w.sendTimeMs = t₀ := by
  unfold sinceIn
  by_cases hw : w.waiting = true
  · rw [if_pos hw]
    exact ⟨fun h => ⟨hw, Option.some.inj h⟩, fun h => congrArg some h.2⟩
  · rw [if_neg hw]
    exact ⟨fun h => (Option.some_ne_none _ h.symm).elim, fun h => absurd h.1 hw⟩

/-- The slot of a waiting command. -/
def waitingSince (cmd : BleCmd) (f : FirmwareState) : Option UInt32 :=
  sinceIn (f.bridge.ble.cmdWait cmd)

/-- A round of the timer emits the timeout outcome of the commands that have expired. -/
theorem timesOut_iff (cmd : BleCmd) (f : FirmwareState) (now : UInt32) :
    TimesOut cmd f now ↔ cmd ∈ timedCmds ∧ Expired f.bridge.ble now cmd := by
  have htick : outcomes (checkTimeoutTimerCb f.bridge.ble now).2 =
      ((timedCmds.filter fun c => decide (Expired f.bridge.ble now c)).map
        fun c => outcomes (timeoutOutcome c)).flatten := outcomes_tick f.bridge.ble now
  unfold TimesOut
  rw [htick]
  constructor
  · rintro ⟨d, hd, hmem⟩
    obtain ⟨l, hl, hdl⟩ := List.mem_flatten.mp hmem
    obtain ⟨c, hc, rfl⟩ := List.mem_map.mp hl
    obtain ⟨hct, hexp⟩ := List.mem_filter.mp hc
    obtain ⟨a, rfl, ha⟩ := code_of_timeoutOutcome hd
    obtain ⟨b, rfl, hb⟩ := code_of_timeoutOutcome hdl
    obtain rfl := code_injective (ha.symm.trans hb)
    exact ⟨hct, of_decide_eq_true hexp⟩
  · rintro ⟨hmem, hexp⟩
    obtain ⟨a, rfl⟩ := cmd_of_mem_timedCmds hmem
    obtain ⟨d, hd, -⟩ := timeoutOutcome_cmd a
    rw [hd]
    refine ⟨d, List.mem_singleton_self d, List.mem_flatten.mpr ⟨[d], ?_, List.mem_singleton_self d⟩⟩
    exact List.mem_map.mpr ⟨a.cmd, List.mem_filter.mpr ⟨hmem, decide_eq_true hexp⟩, hd⟩

/-- **One call and a waiting command**: a command that waits since `t₀` after the call was sent by
it at `t₀`, or it waited since `t₀` before and the call keeps it. -/
theorem waitingSince_step {cmd : BleCmd} (hcmd : cmd ∈ timedCmds) (f : FirmwareState) (c : Call)
    (t₀ : UInt32) (h : waitingSince cmd (singleStep addr f c).1 = some t₀) :
    Sends cmd t₀ f c ∨ waitingSince cmd f = some t₀ ∧ KeepsWaiting cmd t₀ f c := by
  have hne : cmd ≠ .handshakeRsp := by
    rintro rfl
    exact absurd hcmd (by decide)
  unfold waitingSince at h ⊢
  rw [cmdWait_singleStep addr f c hne] at h
  cases c with
  | parsed k now =>
    cases k with
    | appCmd appCmd frame =>
      rcases appCmd_cases f.bridge.ble appCmd frame now with ⟨c, -, hsent⟩ | ⟨hsame, hno⟩
      · simp only [hsent, sent] at h
        by_cases hc : cmd = c
        · subst hc
          rw [Function.update_self] at h
          obtain rfl := Option.some.inj h
          exact .inl ⟨appCmd, frame, rfl, by rw [hsent]; exact List.mem_singleton_self _⟩
        · rw [Function.update_of_ne hc] at h
          refine .inr ⟨h, fun hmem => hc ?_⟩
          rw [hsent] at hmem
          exact cmdBytes_injective (Effect.uart.inj (List.mem_singleton.mp hmem))
      · simp only [hsame] at h
        exact .inr ⟨h, hno _⟩
    | handshake | readWrite | mcuReply | otaStart | otaData | packageRetry | eraseRetry =>
      exact .inr ⟨h, trivial⟩
  | protocolData data now =>
    right
    simp only [(protocol_frame f.bridge.ble data now).2] at h
    by_cases htwo : data.length = 2
    · rw [if_pos htwo] at h
      by_cases hlast : f.bridge.ble.controler.lastCmdType = some cmd
      · obtain ⟨hw, ht⟩ := sinceIn_eq_some.mp h
        rw [hlast, clearWaiting_self, Bool.and_eq_true, decide_eq_true_eq] at hw
        rw [sendTime_clearWaiting] at ht
        subst ht
        refine ⟨sinceIn_eq_some.mpr ⟨hw.1, rfl⟩, fun hin => ?_⟩
        exact absurd hw.2 (UInt32.not_lt.mpr hin.2.2)
      · rw [clearWaiting_of_ne hlast] at h
        exact ⟨h, fun hin => hlast hin.2.1⟩
    · rw [if_neg htwo] at h
      exact ⟨h, fun hin => htwo hin.1⟩
  | timeoutTick now =>
    right
    obtain ⟨hw, ht⟩ := sinceIn_eq_some.mp h
    obtain ⟨a, rfl⟩ := cmd_of_mem_timedCmds hcmd
    have htick := waiting_tick f.bridge.ble a now
    have htime : ((checkTimeoutTimerCb f.bridge.ble now).1.cmdWait a.cmd).sendTimeMs =
        (f.bridge.ble.cmdWait a.cmd).sendTimeMs := sendTime_checkTimeouts now a.cmd _ _
    have htimer : (v2Step f.bridge.ble (.tick now)).1 = (checkTimeoutTimerCb f.bridge.ble now).1 :=
      rfl
    rw [htimer, hw, eq_comm, Bool.and_eq_true, Bool.not_eq_true', decide_eq_false_iff_not] at htick
    refine ⟨sinceIn_eq_some.mpr ⟨htick.1, htime.symm.trans ht⟩, fun hout => ?_⟩
    exact htick.2 ((timesOut_iff _ _ _).mp hout).2
  | ctrlReply | ucCmd | receiver | handshakeTick | mainLoop => exact .inr ⟨h, trivial⟩

/-- **Timeout outcomes are sound**, in every run of calls before which no command waits. -/
theorem outcomesSound {s : FirmwareState} (h0 : ∀ cmd, waitingSince cmd s = none) (cs : List Call) :
    OutcomesSound addr s cs := by
  rintro pre t post - cmd hout
  obtain ⟨hcmd, hwait, hlate⟩ := (timesOut_iff _ _ _).mp hout
  obtain ⟨ys, c, zs, hput⟩ := exists_putBy (waitingSince_step addr hcmd) (h0 cmd)
    (sinceIn_eq_some.mpr ⟨hwait, rfl⟩)
  exact ⟨_, ys, c, zs, hput, hlate⟩

/-- **What a timeout says is true**, in every run of the firmware: an error frame for a missing
reply names the last request that was forwarded, and a timeout outcome the last send of its
command. -/
theorem timeouts_sound (e : Eeprom) (xs : List FirmwareEvent) :
    final (singleStep addr) (powerOn e) (callsOfRun addr (powerOn e) xs) =
        final (firmwareStep addr) (powerOn e) xs ∧
      outs (singleStep addr) (powerOn e) (callsOfRun addr (powerOn e) xs) =
        outs (firmwareStep addr) (powerOn e) xs ∧
      NoRepliesSound addr (powerOn e) (callsOfRun addr (powerOn e) xs) ∧
      OutcomesSound addr (powerOn e) (callsOfRun addr (powerOn e) xs) :=
  ⟨final_calls addr (powerOn e) xs, outs_calls addr (powerOn e) xs, noRepliesSound addr rfl _,
    outcomesSound addr (fun _ => rfl) _⟩

end BleHidUart.Firmware.Timeouts
