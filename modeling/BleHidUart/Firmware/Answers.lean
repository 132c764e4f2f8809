import BleHidUart.Firmware.OtaDevice
import BleHidUart.Firmware.Parsed
import BleHidUart.Firmware.Timeouts

/-!
# What the V3 bridge does in a run of `main`

Its effects are told from all others: requests that are passed on, replies and error frames. While
the app requests nothing and nothing expires, `main_stretch` says that they are the answers to the
replies which the receiver puts together, whatever else reaches `main`.
-/

namespace BleHidUart.Firmware.Answers

open BleHidUart.Board BleHidUart.Firmware.Calls BleHidUart.Firmware.Dispatch
open BleHidUart.Firmware.Joint BleHidUart.Firmware.Machine BleHidUart.Firmware.Main
open BleHidUart.Firmware.OtaDevice BleHidUart.Firmware.Parsed BleHidUart.Firmware.Requests
open BleHidUart.Firmware.Timeouts BleHidUart.Lib.Run BleHidUart.Lib.Word BleHidUart.Uart.Receiver
open BleHidUart.Uart.V3Replies BleHidUart.V3.Bridge BleHidUart.V3.Deframe BleHidUart.V3.Handlers
open BleHidUart.V3.Parser

/-! ### What the V3 bridge does -/

/-- The commands of replies and error frames. -/
def v3Cmds : List UInt8 := [v3CmdWriteCtrl, v3CmdReadCtrl, v3CmdWriteErr, v3CmdReadErr]

/-- An effect of the V3 bridge: a request that is passed on, a reply or an error frame. -/
def isV3Effect : Effect → Bool
  | .uart data => byteAt data 0 = v3FrameHead0
  | .notify data _ => byteAt data 0 = v3FrameHead0 ∧ byteAt data 2 ∈ v3Cmds
  | .i2c _ | .led _ => false

/-- Those among the effects. -/
def v3Effects (fx : List Effect) : List Effect := fx.filter isV3Effect

theorem v3Effects_append (fx gx : List Effect) :
    v3Effects (fx ++ gx) = v3Effects fx ++ v3Effects gx :=
  List.filter_append ..

theorem v3Effects_nil {fx : List Effect} (h : ∀ o ∈ fx, isV3Effect o = false) : v3Effects fx = [] :=
  List.filter_eq_nil_iff.mpr fun o ho => by simp [h o ho]

theorem v3Effects_v2 {fx : List Effect} (h : V2Only fx) : v3Effects fx = [] := by
  refine v3Effects_nil fun o ho => ?_
  have hv2 := h o ho
  cases o with
  | i2c | led => rfl
  | uart data =>
    refine decide_eq_false fun h0 => ?_
    rcases of_decide_eq_true hv2 with h1 | h1 <;> exact absurd (h1.symm.trans h0) (by decide)
  | notify data len =>
    exact decide_eq_false fun h0 => absurd ((of_decide_eq_true hv2).symm.trans h0.1) (by decide)

theorem v3Effects_device {fx : List Effect} (h : ∀ o ∈ fx, isDeviceEffect o = true) :
    v3Effects fx = [] := by
  have hother : otaCmds.all (· ∉ v3Cmds) = true := by decide
  refine v3Effects_nil fun o ho => ?_
  have hdev := h o ho
  cases o with
  | i2c | led => rfl
  | uart data =>
    refine decide_eq_false fun h0 => ?_
    have hzero := congrArg (byteAt · 0) (of_decide_eq_true hdev)
    rw [byteAt_take (by decide), h0] at hzero
    exact absurd hzero (by decide)
  | notify data len =>
    refine decide_eq_false fun h0 => ?_
    exact of_decide_eq_true (List.all_eq_true.mp hother _ (of_decide_eq_true hdev).2) h0.2

/-- The frame of a timeout. -/
def noReplyTo (cmd grp : UInt8) : Effect :=
  .notify (v3BuildErrorReply (errorCmd cmd) grp v3ErrMcuNoReply) v3FrameSizeError

/-- What the app gets for a reply of the controller. -/
def answerTo (g : NormalFrame) : Effect :=
  if CrcOk g then .notify g.bytes v3FrameSizeNormal else v3CrcError g.bytes g.cmd

theorem isV3Effect_error (cmd grp sta : UInt8) :
    isV3Effect (.notify (v3BuildErrorReply (errorCmd cmd) grp sta) v3FrameSizeError) = true := by
  unfold errorCmd
  split_ifs <;> rfl

theorem isV3Effect_answer (g : NormalFrame) : isV3Effect (answerTo g) = true := by
  obtain ⟨h0, -, h2⟩ := g.byteAt_head
  unfold answerTo
  split_ifs
  · refine decide_eq_true ⟨h0, ?_⟩
    rw [h2]
    rcases g.kind with hk | hk <;> rw [hk] <;> decide
  · exact isV3Effect_error _ _ _

/-! ### One call -/

section Call
variable (addr : List UInt8) (f : FirmwareState)

/-- The V3 bridge in the state of the firmware. -/
abbrev v3Of (f : FirmwareState) : V3BridgeState := f.bridge.ble.v3

/-- A request of the app, a reply of the controller, or a round of the timer. -/
def IsV3Call : Call → Bool
  | .parsed (.readWrite _ _) _ | .parsed (.mcuReply _ _) _ | .timeoutTick _ => true
  | _ => false

theorem v3_request {g : NormalFrame} (hg : CrcOk g) (now : UInt32) :
    v3Of (singleStep addr f (.parsed (.readWrite g.bytes g.cmd) now)).1 = forwarded (v3Of f) g now ∧
      v3Effects (singleStep addr f (.parsed (.readWrite g.bytes g.cmd) now)).2 =
        [.uart g.bytes] := by
  have hcall := callHandler_forward (b := f.bridge) hg now
  have hhead : isV3Effect (.uart g.bytes) = true := decide_eq_true g.byteAt_head.1
  unfold singleStep
  dsimp only
  rw [hcall]
  exact ⟨rfl, List.filter_eq_self.mpr fun o ho => by rwa [List.mem_singleton.mp ho]⟩

/-- The state after replies: nothing is pending after one with the right CRC. -/
def afterReplies (s : V3BridgeState) (gs : List NormalFrame) : V3BridgeState :=
  { s with waitingMcuReply := s.waitingMcuReply && gs.all (¬CrcOk ·) }

theorem v3_reply (g : NormalFrame) (now : UInt32) :
    v3Of (singleStep addr f (.parsed (.mcuReply g.bytes g.cmd) now)).1 = afterReplies (v3Of f) [g] ∧
      v3Effects (singleStep addr f (.parsed (.mcuReply g.bytes g.cmd) now)).2 = [answerTo g] := by
  have hstep : v3HandleMcuReply (v3Of f) g.bytes g.cmd =
      (afterReplies (v3Of f) [g], [answerTo g]) := by
    by_cases hg : CrcOk g
    · have hcrc : v3CrcVerify g.bytes v3CrcCountNormal v3CrcOffsetNormal = true := hg
      rw [v3HandleMcuReply, if_neg (not_not.mpr hcrc), g.take_size]
      simp [afterReplies, answerTo, hg]
    · have hcrc : ¬v3CrcVerify g.bytes v3CrcCountNormal v3CrcOffsetNormal = true := hg
      rw [v3HandleMcuReply, if_pos hcrc]
      simp [afterReplies, answerTo, hg]
  have heffects : (singleStep addr f (.parsed (.mcuReply g.bytes g.cmd) now)).2 = [answerTo g] :=
    congrArg Prod.snd hstep
  refine ⟨congrArg Prod.fst hstep, ?_⟩
  rw [heffects]
  exact List.filter_eq_self.mpr fun o ho => by rw [List.mem_singleton.mp ho, isV3Effect_answer]

theorem v3_tick (now : UInt32) :
    v3Of (singleStep addr f (.timeoutTick now)).1 = (v3TimeoutCheck (v3Of f) now).1 ∧
      v3Effects (singleStep addr f (.timeoutTick now)).2 = (v3TimeoutCheck (v3Of f) now).2 := by
  refine ⟨v3_singleStep addr f _, ?_⟩
  have hown : v3Effects (v3TimeoutCheck (v3Of f) now).2 = (v3TimeoutCheck (v3Of f) now).2 := by
    rcases v3TimeoutCheck_cases (v3Of f) now with ⟨-, hcheck⟩ | ⟨-, hcheck⟩
    · rw [hcheck]
      exact List.filter_eq_self.mpr fun o ho => by rw [List.mem_singleton.mp ho, isV3Effect_error]
    · rw [hcheck]
      rfl
  refine (v3Effects_append _ _).trans ?_
  rw [hown, v3Effects_v2 (v2Only_timeouts now _ _), List.append_nil]

variable {f}

theorem v3_other {c : Call} (hc : FramedCall c) (hno : IsV3Call c = false) :
    v3Of (singleStep addr f c).1 = v3Of f ∧ v3Effects (singleStep addr f c).2 = [] := by
  have hstimulus : ∀ x : Stimulus, (singleStep addr f c).2 = (deviceStep (deviceOf f) x).2 →
      v3Effects (singleStep addr f c).2 = [] := fun x hx => by
    rw [hx]
    exact v3Effects_device (effects_device _ x)
  have hstate := v3_singleStep addr f c
  cases c with
  | parsed k now =>
    cases k with
    | readWrite | mcuReply => cases hno
    | appCmd appCmd frame => exact ⟨hstate, v3Effects_v2 (v2Only_appCmd _ appCmd frame now)⟩
    | handshake frame =>
      refine ⟨hstate, ?_⟩
      simp only [singleStep, callHandler, v3HandleHandshake]
      split_ifs <;> rfl
    | otaStart frame =>
      obtain ⟨g, rfl⟩ := hc.1
      exact ⟨hstate, hstimulus (.app (.start g)) rfl⟩
    | otaData frame n =>
      obtain ⟨g, rfl, rfl⟩ := hc.1
      exact ⟨hstate, hstimulus (.app (.data g)) rfl⟩
    | packageRetry frame =>
      obtain ⟨g, rfl⟩ := hc.1
      exact ⟨hstate, hstimulus (.app (.packageRetry g)) rfl⟩
    | eraseRetry frame =>
      obtain ⟨g, rfl⟩ := hc.1
      exact ⟨hstate, hstimulus (.app (.eraseRetry g)) rfl⟩
  | ctrlReply cmd now => exact ⟨hstate, hstimulus (.ctrl (.reply cmd now)) rfl⟩
  | mainLoop now => exact ⟨hstate, hstimulus (.ctrl (.tick now)) rfl⟩
  | protocolData data now => exact ⟨hstate, v3Effects_v2 (v2Only_protocol _ data now)⟩
  | ucCmd data => exact ⟨hstate, v3Effects_v2 (v2Only_address addr data)⟩
  | handshakeTick now => exact ⟨hstate, v3Effects_v2 (v2Only_handshakeTick addr f now)⟩
  | receiver event => exact ⟨hstate, rfl⟩
  | timeoutTick now => cases hno

end Call

/-! ### A stretch without requests -/

/-- The replies among the calls. -/
abbrev repliesOf (cs : List Call) : List HandlerCall := (handlerCalls cs).filter IsMcuReply

/-- The calls that hand on these replies. -/
abbrev replyCalls (gs : List NormalFrame) : List HandlerCall :=
  gs.map fun g => .mcuReply g.bytes g.cmd

theorem repliesOf_other {c : Call} (h : IsV3Call c = false) : repliesOf [c] = [] := by
  cases c with
  | parsed k now =>
    cases k with
    | readWrite | mcuReply => cases h
    | appCmd | handshake | otaStart | otaData | packageRetry | eraseRetry => rfl
  | ctrlReply | protocolData | ucCmd | receiver | handshakeTick | timeoutTick | mainLoop => rfl

theorem afterReplies_nil (s : V3BridgeState) : afterReplies s [] = s := by simp [afterReplies]

theorem afterReplies_append (s : V3BridgeState) (gs hs : List NormalFrame) :
    afterReplies (afterReplies s gs) hs = afterReplies s (gs ++ hs) := by
  simp [afterReplies, Bool.and_assoc]

theorem expires_of_afterReplies {s : V3BridgeState} {gs : List NormalFrame} {now : UInt32}
    (h : Expires (afterReplies s gs) now) : Expires s now :=
  ⟨(Bool.and_eq_true_iff.mp h.1).1, h.2⟩

section Stretch
variable (addr : List UInt8) {f : FirmwareState}

theorem v3_call {c : Call} (hc : FramedCall c)
    (hno : ∀ frame cmd now, c ≠ .parsed (.readWrite frame cmd) now)
    (hearly : ∀ now, c = .timeoutTick now → ¬Expires (v3Of f) now) {gs : List NormalFrame}
    (hgs : repliesOf [c] = replyCalls gs) : v3Effects (singleStep addr f c).2 = gs.map answerTo ∧
      v3Of (singleStep addr f c).1 = afterReplies (v3Of f) gs := by
  by_cases hv3 : IsV3Call c = false
  · rw [repliesOf_other hv3] at hgs
    obtain rfl := List.map_eq_nil_iff.mp hgs.symm
    obtain ⟨hstate, heffects⟩ := v3_other addr (f := f) hc hv3
    rw [afterReplies_nil]
    exact ⟨heffects, hstate⟩
  cases c with
  | parsed k now =>
    cases k with
    | readWrite frame cmd => exact absurd rfl (hno frame cmd now)
    | mcuReply frame cmd =>
      obtain ⟨g, rfl, hg⟩ := List.map_eq_singleton_iff.mp hgs.symm
      obtain ⟨rfl, rfl⟩ := HandlerCall.mcuReply.inj hg
      obtain ⟨hstate, heffects⟩ := v3_reply addr f g now
      exact ⟨heffects, hstate⟩
    | appCmd | handshake | otaStart | otaData | packageRetry | eraseRetry => exact absurd rfl hv3
  | timeoutTick now =>
    obtain rfl := List.map_eq_nil_iff.mp hgs.symm
    obtain ⟨hstate, heffects⟩ := v3_tick addr f now
    rcases v3TimeoutCheck_cases (v3Of f) now with ⟨hexp, -⟩ | ⟨-, hcheck⟩
    · exact absurd hexp (hearly now rfl)
    · rw [hcheck] at hstate heffects
      rw [afterReplies_nil]
      exact ⟨heffects, hstate⟩
  | ctrlReply | protocolData | ucCmd | receiver | handshakeTick | mainLoop => exact absurd rfl hv3

theorem v3_stretch {cs : List Call} (hframed : ∀ c ∈ cs, FramedCall c)
    (hno : ∀ frame cmd now, .parsed (.readWrite frame cmd) now ∉ cs)
    (hearly : ∀ now, .timeoutTick now ∈ cs → ¬Expires (v3Of f) now) {gs : List NormalFrame}
    (hgs : repliesOf cs = replyCalls gs) :
    v3Effects (outs (singleStep addr) f cs) = gs.map answerTo ∧
      v3Of (final (singleStep addr) f cs) = afterReplies (v3Of f) gs := by
  induction cs generalizing f gs with
  | nil =>
    obtain rfl := List.map_eq_nil_iff.mp hgs.symm
    exact ⟨rfl, (afterReplies_nil _).symm⟩
  | cons c cs ih =>
    obtain ⟨hc, hframed⟩ := List.forall_mem_cons.mp hframed
    have hsplit : repliesOf (c :: cs) = repliesOf [c] ++ repliesOf cs := by
      rw [repliesOf, ← List.singleton_append, handlerCalls_append, List.filter_append]
    rw [hsplit] at hgs
    obtain ⟨gs, hs, rfl, hone, hrest⟩ := List.map_eq_append_iff.mp hgs.symm
    obtain ⟨heffects, hstate⟩ := v3_call addr (f := f) hc
      (fun frame cmd now heq => hno frame cmd now (heq ▸ List.mem_cons_self))
      (fun now heq => hearly now (heq ▸ List.mem_cons_self)) hone.symm
    obtain ⟨houts, hfinal⟩ := ih hframed (f := (singleStep addr f c).1)
      (fun frame cmd now hmem => hno frame cmd now (List.mem_cons_of_mem _ hmem))
      (fun now hmem hexp => by
        rw [hstate] at hexp
        exact hearly now (List.mem_cons_of_mem _ hmem) (expires_of_afterReplies hexp)) hrest.symm
    rw [outs_cons, v3Effects_append, heffects, houts, final_cons, hfinal, hstate,
      afterReplies_append, List.map_append]
    exact ⟨rfl, rfl⟩

end Stretch

/-! ### A run of `main` -/

/-- The call hands on a request of the app. -/
def IsRequest : HandlerCall → Bool
  | .readWrite _ _ => true
  | _ => false

/-- The event brings no request of the app. -/
def NoRequest : MainEvent → Prop
  | .event (.appData data _) => (v3HandleAppData data (UInt16.ofNat data.length)).all (!IsRequest ·)
  | _ => True

instance : (y : MainEvent) → Decidable (NoRequest y)
  | .event (.appData _ _) => inferInstanceAs (Decidable (_ = true))
  | .event (.uart _ _) | .event (.handshakeTick _) | .event (.timeoutTick _) | .event (.mainLoop _)
  | .wakeUp => .isTrue trivial

section Main
variable (addr : List UInt8) {m : MainState}

theorem no_request_mcu (data : List UInt8) :
    ∀ k ∈ v3HandleMcuData data (UInt16.ofNat data.length), IsRequest k = false := by
  unfold v3HandleMcuData
  split_ifs
  · exact fun k hk => absurd hk List.not_mem_nil
  refine forall_v3ParseLoop (fun _ _ => rfl) (fun offset n k _ _ _ hk => ?_) _ _
  rw [(v3Dispatch_mcu hk).2]
  rfl

theorem no_request {ys : List MainEvent} (h : ∀ y ∈ ys, NoRequest y) (frame : List UInt8)
    (cmd : UInt8) (now : UInt32) : .parsed (.readWrite frame cmd) now ∉ callsFrom addr m ys := by
  intro hmem
  have hk : .readWrite frame cmd ∈ handlerCalls (callsFrom addr m ys) :=
    List.mem_filterMap.mpr ⟨_, hmem, rfl⟩
  rw [(parsed_run addr m ys).1] at hk
  rcases mem_parsedIn hk with ⟨data, clock, hy, hk⟩ | ⟨data, -, hk⟩
  · exact absurd (List.all_eq_true.mp (h _ hy) _ hk) Bool.false_ne_true
  · exact absurd (no_request_mcu data _ hk) Bool.noConfusion

/-- A run of `main` in which the app requests nothing and no request expires. -/
theorem main_stretch {ys : List MainEvent} (hno : ∀ y ∈ ys, NoRequest y)
    (hearly : ∀ now, .event (.timeoutTick now) ∈ ys → ¬Expires (v3Of m.firmware) now)
    {gs : List NormalFrame}
    (hgs : (outs rxStep m.firmware.rx (uartIn ys)).flatMap mcuReplies = replyCalls gs) :
    v3Effects (outs (mainStep addr) m ys) = gs.map answerTo ∧
      v3Of (final (mainStep addr) m ys).firmware = afterReplies (v3Of m.firmware) gs := by
  obtain ⟨hfinal, houts⟩ := run_calls addr m ys
  rw [hfinal, houts]
  exact v3_stretch addr (framed_run addr m.firmware _) (no_request addr hno)
    (fun now ht => hearly now (tick_mem addr m ht))
    (by rw [repliesOf, (parsed_run addr m ys).1, filter_parsedIn, hgs])

end Main

end BleHidUart.Firmware.Answers
