import BleHidUart.Firmware.Dispatch

/-!
# V3 requests and their answers

The app writes read and write frames, the controller replies to those that were forwarded, and the
timer looks at the pending request. A terminal notification ends a request for the app: the reply, a
CRC error frame, or the error frame of a timeout.

`one_answer_iff`: if the app waits for an answer before its next request, it gets at most one for
each exactly when the controller replies in time and no damaged reply is followed by anything else.
A damaged reply is answered with an error frame, but its request stays pending.
-/

namespace BleHidUart.Firmware.Requests

open BleHidUart.Board BleHidUart.Firmware.Dispatch BleHidUart.Lib.Framing BleHidUart.Lib.Run
open BleHidUart.V3.Bridge BleHidUart.V3.Deframe BleHidUart.V3.Handlers BleHidUart.V3.Parser

/-! ### The machine -/

/-- One or more requests in one BLE write. -/
structure RequestWrite where
  frames : List NormalFrame
  size : (frames.flatMap NormalFrame.bytes).length ≤ 65535

/-- A write of the app, a reply of the controller, a round of the timer. -/
inductive RequestEvent
  | write (w : RequestWrite) (clock : ℕ → UInt32)
  | reply (f : NormalFrame) (clock : ℕ → UInt32)
  | tick (now : UInt32)

/-- The bridge as a machine. -/
def requestStep (b : Bridge) : RequestEvent → Bridge × List Effect
  | .write w clock => runCalls b clock (writeCalls (w.frames.flatMap NormalFrame.bytes))
  | .reply f clock => handleMcuData b clock f.bytes
  | .tick now => b.setV3 (v3TimeoutCheck b.ble.v3 now)

/-- The CRC of a frame is right. -/
def CrcOk (f : NormalFrame) : Prop := v3CrcVerify f.bytes v3CrcCountNormal v3CrcOffsetNormal

instance (f : NormalFrame) : Decidable (CrcOk f) := by unfold CrcOk; infer_instance

theorem writeCalls_requests (w : RequestWrite) : writeCalls (w.frames.flatMap NormalFrame.bytes) =
    w.frames.map fun f => .readWrite f.bytes f.cmd := by
  have hrec : ∀ f : NormalFrame, Recognises (v3Scan true) f.bytes (.readWrite f.bytes f.cmd) :=
    fun f => recognises_wireFrame (.readWrite f)
  unfold writeCalls
  rw [v3HandleAppData_eq w.size]
  exact deframe_flatMap (sound_v3Scan true) hrec w.frames

/-- The state after a forwarded request. -/
def forwarded (s : V3BridgeState) (f : NormalFrame) (now : UInt32) : V3BridgeState :=
  { s with
    waitingMcuReply := true
    pendingCmd := f.cmd
    pendingGrp := Lib.Word.byteAt f.bytes 3
    sendTimeMs := now }

theorem callHandler_forward {b : Bridge} {f : NormalFrame} (h : CrcOk f) (now : UInt32) :
    callHandler b (.readWrite f.bytes f.cmd) now =
      b.setV3 (forwarded b.ble.v3 f now, [.uart f.bytes]) := by
  show b.setV3 (v3HandleReadWrite b.ble.v3 f.bytes f.cmd now) = _
  unfold v3HandleReadWrite
  have hcrc : v3CrcVerify f.bytes v3CrcCountNormal v3CrcOffsetNormal = true := h
  rw [if_neg (not_not.mpr hcrc), f.take_size]
  rfl

theorem callHandler_refuse {b : Bridge} {f : NormalFrame} (h : ¬ CrcOk f) (now : UInt32) :
    callHandler b (.readWrite f.bytes f.cmd) now = (b, [v3CrcError f.bytes f.cmd]) := by
  show b.setV3 (v3HandleReadWrite b.ble.v3 f.bytes f.cmd now) = _
  unfold v3HandleReadWrite
  have hcrc : ¬ v3CrcVerify f.bytes v3CrcCountNormal v3CrcOffsetNormal = true := h
  rw [if_pos hcrc]
  rfl

theorem requestStep_mcuReply (b : Bridge) (f : NormalFrame) (clock : ℕ → UInt32) :
    requestStep b (.reply f clock) = b.setV3 (v3HandleMcuReply b.ble.v3 f.bytes f.cmd) := by
  show runCalls b clock (v3HandleMcuData f.bytes (UInt16.ofNat f.bytes.length)) = _
  rw [v3HandleMcuData_reply, runCalls_singleton]
  rfl

theorem requestStep_reply {b : Bridge} {f : NormalFrame} (h : CrcOk f) (clock : ℕ → UInt32) :
    requestStep b (.reply f clock) =
      b.setV3 ({ b.ble.v3 with waitingMcuReply := false },
      [.notify f.bytes v3FrameSizeNormal]) := by
  have hcrc : v3CrcVerify f.bytes v3CrcCountNormal v3CrcOffsetNormal = true := h
  rw [requestStep_mcuReply, v3HandleMcuReply, if_neg (not_not.mpr hcrc), f.take_size]

theorem requestStep_damaged {b : Bridge} {f : NormalFrame} (h : ¬ CrcOk f) (clock : ℕ → UInt32) :
    requestStep b (.reply f clock) = (b, [v3CrcError f.bytes f.cmd]) := by
  have hcrc : ¬ v3CrcVerify f.bytes v3CrcCountNormal v3CrcOffsetNormal = true := h
  rw [requestStep_mcuReply, v3HandleMcuReply, if_pos hcrc]
  rfl

/-- The pending request has waited too long. -/
def Expires (s : V3BridgeState) (now : UInt32) : Prop :=
  s.waitingMcuReply ∧ v3McuReplyTimeoutMs ≤ now - s.sendTimeMs

instance (s : V3BridgeState) (now : UInt32) : Decidable (Expires s now) := by
  unfold Expires; infer_instance

/-- The command of the error frames for a request. -/
def errorCmd (cmd : UInt8) : UInt8 := if cmd = v3CmdWriteCtrl then v3CmdWriteErr else v3CmdReadErr

/-- `V3_timeout_check` reports a request that has expired, and then it is no longer pending. -/
theorem v3TimeoutCheck_cases (s : V3BridgeState) (now : UInt32) :
    Expires s now ∧ v3TimeoutCheck s now = ({ s with waitingMcuReply := false },
        [.notify (v3BuildErrorReply (errorCmd s.pendingCmd) s.pendingGrp v3ErrMcuNoReply)
          v3FrameSizeError]) ∨
      ¬ Expires s now ∧ v3TimeoutCheck s now = (s, []) := by
  unfold v3TimeoutCheck Expires
  cases s.waitingMcuReply with
  | false => exact .inr ⟨fun h => Bool.false_ne_true h.1, rfl⟩
  | true =>
    by_cases hlate : v3McuReplyTimeoutMs ≤ now - s.sendTimeMs
    · rw [if_pos hlate]
      exact .inl ⟨⟨rfl, hlate⟩, rfl⟩
    · rw [if_neg hlate]
      exact .inr ⟨fun h => hlate h.2, rfl⟩

theorem requestStep_expires {b : Bridge} {now : UInt32} (h : Expires b.ble.v3 now) :
    requestStep b (.tick now) = b.setV3 ({ b.ble.v3 with waitingMcuReply := false },
      [.notify
        (v3BuildErrorReply (errorCmd b.ble.v3.pendingCmd) b.ble.v3.pendingGrp v3ErrMcuNoReply)
        v3FrameSizeError]) := by
  show b.setV3 (v3TimeoutCheck b.ble.v3 now) = _
  rcases v3TimeoutCheck_cases b.ble.v3 now with ⟨-, hcheck⟩ | ⟨hno, -⟩
  · rw [hcheck]
  · exact absurd h hno

theorem requestStep_quiet {b : Bridge} {now : UInt32} (h : ¬ Expires b.ble.v3 now) :
    requestStep b (.tick now) = (b, []) := by
  show b.setV3 (v3TimeoutCheck b.ble.v3 now) = _
  rcases v3TimeoutCheck_cases b.ble.v3 now with ⟨hexp, -⟩ | ⟨-, hcheck⟩
  · exact absurd hexp h
  · rw [hcheck]
    rfl

/-! ### Answers -/

/-- What has happened since the last request of the app: its terminal notifications, and whether a
damaged reply has come; with the number of forwarded requests whose reply is still to come. -/
structure Period where
  asked : Bool := false
  answers : ℕ := 0
  damaged : Bool := false
  owed : ℕ := 0

def IsNotify : Effect → Bool
  | .notify _ _ => true
  | _ => false

def IsUart : Effect → Bool
  | .uart _ => true
  | _ => false

/-- The history. A request opens a period, also one that is refused. -/
def recordPeriod (h : Period) (_ : Bridge) (e : RequestEvent) (fx : List Effect) (_ : Bridge) :
    Period :=
  match e with
  | .write _ _ =>
    { asked := true
      answers := fx.countP IsNotify
      damaged := h.damaged && fx.countP IsUart = 0
      owed := h.owed + fx.countP IsUart }
  | .reply f _ =>
    { h with
      answers := h.answers + fx.countP IsNotify
      damaged := h.damaged || !v3CrcVerify f.bytes v3CrcCountNormal v3CrcOffsetNormal
      owed := h.owed - 1 }
  | .tick _ => { h with answers := h.answers + fx.countP IsNotify }

/-- The bridge with this history. -/
abbrev periodStep : Bridge × Period → RequestEvent → (Bridge × Period) × List Effect :=
  withHistory requestStep recordPeriod

/-- The app writes one request, after an answer to the one before; the controller replies at most
once to each forwarded request. -/
def Allowed (s : Bridge × Period) : RequestEvent → Prop
  | .write w _ => w.frames.length = 1 ∧ (s.2.asked → s.2.answers ≠ 0)
  | .reply _ _ => s.2.owed ≠ 0
  | .tick _ => True

/-- A reply comes while its request is pending, and nothing comes after a damaged reply. -/
def Timely (s : Bridge × Period) : RequestEvent → Prop
  | .write _ _ => True
  | .reply _ _ => s.1.ble.v3.waitingMcuReply ∧ ¬ s.2.damaged
  | .tick now => Expires s.1.ble.v3 now → ¬ s.2.damaged

instance : ∀ (s : Bridge × Period) (e : RequestEvent), Decidable (Allowed s e)
  | _, .write _ _ => inferInstanceAs (Decidable (_ ∧ (_ → _)))
  | _, .reply _ _ => inferInstanceAs (Decidable (_ ≠ _))
  | _, .tick _ => .isTrue trivial

instance : ∀ (s : Bridge × Period) (e : RequestEvent), Decidable (Timely s e)
  | _, .write _ _ => .isTrue trivial
  | _, .reply _ _ => inferInstanceAs (Decidable (_ ∧ ¬ _))
  | _, .tick _ => inferInstanceAs (Decidable (_ → ¬ _))

/-- **The invariant**: the last request has no answer exactly while it is pending and no damaged
reply has come. -/
structure PeriodInv (s : Bridge × Period) : Prop where
  idle : s.2.asked = false → s.1.ble.v3.waitingMcuReply = false ∧ s.2.owed = 0
  unanswered : s.2.asked = true →
    (s.2.answers = 0 ↔ s.1.ble.v3.waitingMcuReply = true ∧ s.2.damaged = false)

theorem requestStep_write {b : Bridge} {w : RequestWrite} (h : w.frames.length = 1)
    (clock : ℕ → UInt32) : ∃ f, requestStep b (.write w clock) =
      if CrcOk f then b.setV3 (forwarded b.ble.v3 f (clock 0), [.uart f.bytes])
      else (b, [v3CrcError f.bytes f.cmd]) := by
  obtain ⟨f, hf⟩ := List.length_eq_one_iff.mp h
  refine ⟨f, ?_⟩
  show runCalls b clock (writeCalls (w.frames.flatMap NormalFrame.bytes)) = _
  rw [writeCalls_requests, hf, List.map_singleton, runCalls_singleton]
  by_cases hcrc : CrcOk f
  · rw [if_pos hcrc, callHandler_forward hcrc]
  · rw [if_neg hcrc, callHandler_refuse hcrc]

section Steps
variable {s : Bridge × Period}

theorem period_write {w : RequestWrite} (h : w.frames.length = 1) (clock : ℕ → UInt32) :
    (periodStep s (.write w clock)).1.2.asked = true ∧
      ((periodStep s (.write w clock)).1.1.ble.v3.waitingMcuReply = true ∧
          (periodStep s (.write w clock)).1.2.answers = 0 ∧
          (periodStep s (.write w clock)).1.2.damaged = false ∨
        (periodStep s (.write w clock)).1.1 = s.1 ∧
          (periodStep s (.write w clock)).1.2.answers = 1 ∧
          (periodStep s (.write w clock)).1.2.damaged = s.2.damaged) := by
  obtain ⟨f, hstep⟩ := requestStep_write (b := s.1) h clock
  refine ⟨rfl, ?_⟩
  by_cases hcrc : CrcOk f
  · rw [if_pos hcrc] at hstep
    refine .inl ⟨?_, ?_, ?_⟩
    · show (requestStep s.1 (.write w clock)).1.ble.v3.waitingMcuReply = true
      rw [hstep]
      rfl
    · show (requestStep s.1 (.write w clock)).2.countP IsNotify = 0
      rw [hstep]
      rfl
    · show (s.2.damaged && (requestStep s.1 (.write w clock)).2.countP IsUart = 0) = false
      rw [hstep]
      exact Bool.and_false _
  · rw [if_neg hcrc] at hstep
    refine .inr ⟨?_, ?_, ?_⟩
    · show (requestStep s.1 (.write w clock)).1 = s.1
      rw [hstep]
    · show (requestStep s.1 (.write w clock)).2.countP IsNotify = 1
      rw [hstep]
      rfl
    · show (s.2.damaged && (requestStep s.1 (.write w clock)).2.countP IsUart = 0) = s.2.damaged
      rw [hstep]
      exact Bool.and_true _

theorem period_reply (f : NormalFrame) (clock : ℕ → UInt32) :
    (periodStep s (.reply f clock)).1.2.answers = s.2.answers + 1 ∧
      ((periodStep s (.reply f clock)).1.1.ble.v3.waitingMcuReply = false ∨
        (periodStep s (.reply f clock)).1.2.damaged = true) := by
  by_cases hcrc : CrcOk f
  · have hstep := requestStep_reply (b := s.1) hcrc clock
    refine ⟨?_, .inl ?_⟩
    · show s.2.answers + (requestStep s.1 (.reply f clock)).2.countP IsNotify = _
      rw [hstep]
      rfl
    · show (requestStep s.1 (.reply f clock)).1.ble.v3.waitingMcuReply = false
      rw [hstep]
      rfl
  · have hstep := requestStep_damaged (b := s.1) hcrc clock
    refine ⟨?_, .inr ?_⟩
    · show s.2.answers + (requestStep s.1 (.reply f clock)).2.countP IsNotify = _
      rw [hstep]
      rfl
    · show (s.2.damaged || !v3CrcVerify f.bytes v3CrcCountNormal v3CrcOffsetNormal) = true
      rw [Bool.eq_false_iff.mpr hcrc]
      exact Bool.or_true _

theorem period_tick (now : UInt32) :
    Expires s.1.ble.v3 now ∧ (periodStep s (.tick now)).1.1.ble.v3.waitingMcuReply = false ∧
        (periodStep s (.tick now)).1.2 = { s.2 with answers := s.2.answers + 1 } ∨
      ¬ Expires s.1.ble.v3 now ∧ (periodStep s (.tick now)).1 = s := by
  by_cases hexp : Expires s.1.ble.v3 now
  · have hstep := requestStep_expires hexp
    refine .inl ⟨hexp, ?_, ?_⟩
    · show (requestStep s.1 (.tick now)).1.ble.v3.waitingMcuReply = false
      rw [hstep]
      rfl
    · show ({ s.2 with
        answers := s.2.answers + (requestStep s.1 (.tick now)).2.countP IsNotify } : Period) = _
      rw [hstep]
      rfl
  · have hstep := requestStep_quiet hexp
    refine .inr ⟨hexp, ?_⟩
    show ((requestStep s.1 (.tick now)).1, ({ s.2 with
      answers := s.2.answers + (requestStep s.1 (.tick now)).2.countP IsNotify } : Period)) = s
    rw [hstep]
    rfl

theorem PeriodInv.asked_of_owed (h : PeriodInv s) (howed : s.2.owed ≠ 0) : s.2.asked = true := by
  by_contra hno
  exact howed (h.idle (Bool.eq_false_iff.mpr hno)).2

theorem PeriodInv.asked_of_waiting (h : PeriodInv s) (hwait : s.1.ble.v3.waitingMcuReply = true) :
    s.2.asked = true := by
  by_contra hno
  rw [(h.idle (Bool.eq_false_iff.mpr hno)).1] at hwait
  cases hwait

/-- The invariant is kept by every allowed event. -/
theorem periodInv_step (h : PeriodInv s) {e : RequestEvent} (ha : Allowed s e) :
    PeriodInv (periodStep s e).1 := by
  cases e with
  | write w clock =>
    obtain ⟨hasked, hcase⟩ := period_write (s := s) ha.1 clock
    refine ⟨fun hno => ?_, fun _ => ?_⟩
    · rw [hasked] at hno
      cases hno
    · rcases hcase with ⟨hwait, hzero, hdam⟩ | ⟨hsame, hone, hdam⟩
      · exact ⟨fun _ => ⟨hwait, hdam⟩, fun _ => hzero⟩
      · -- the request before it was answered
        have hnot : ¬ (s.1.ble.v3.waitingMcuReply = true ∧ s.2.damaged = false) := by
          rintro ⟨hwait, hok⟩
          have hbefore := h.asked_of_waiting hwait
          exact ha.2 hbefore ((h.unanswered hbefore).mpr ⟨hwait, hok⟩)
        rw [hsame, hone, hdam]
        exact ⟨fun h1 => absurd h1 Nat.one_ne_zero, fun hw => absurd hw hnot⟩
  | reply f clock =>
    obtain ⟨hans, hcase⟩ := period_reply (s := s) f clock
    have hasked := h.asked_of_owed ha
    refine ⟨fun hno => ?_, fun _ => ?_⟩
    · have hsame : s.2.asked = false := hno
      rw [hasked] at hsame
      cases hsame
    · rw [hans]
      refine ⟨fun hzero => absurd hzero (Nat.succ_ne_zero _), ?_⟩
      rintro ⟨hwait, hok⟩
      rcases hcase with h0 | h1
      · rw [h0] at hwait
        cases hwait
      · rw [h1] at hok
        cases hok
  | tick now =>
    rcases period_tick (s := s) now with ⟨hexp, hwait, hper⟩ | ⟨-, hsame⟩
    · have hasked := h.asked_of_waiting hexp.1
      refine ⟨fun hno => ?_, fun _ => ?_⟩
      · rw [hper] at hno
        rw [hasked] at hno
        cases hno
      · rw [hper, hwait]
        refine ⟨fun hzero => absurd hzero (Nat.succ_ne_zero _), ?_⟩
        rintro ⟨hfalse, -⟩
        cases hfalse
    · rw [hsame]
      exact h

/-- **One event**: with at most one answer so far, there is still at most one exactly if it is
timely. -/
theorem answers_step (h : PeriodInv s) (hone : s.2.answers ≤ 1) {e : RequestEvent}
    (ha : Allowed s e) : (periodStep s e).1.2.answers ≤ 1 ↔ Timely s e := by
  cases e with
  | write w clock =>
    refine ⟨fun _ => trivial, fun _ => ?_⟩
    rcases (period_write (s := s) ha.1 clock).2 with ⟨-, hzero, -⟩ | ⟨-, hans, -⟩ <;> omega
  | reply f clock =>
    have hans := (period_reply (s := s) f clock).1
    have hiff := h.unanswered (h.asked_of_owed ha)
    show _ ↔ s.1.ble.v3.waitingMcuReply = true ∧ ¬ s.2.damaged = true
    rw [Bool.not_eq_true, ← hiff, hans]
    omega
  | tick now =>
    rcases period_tick (s := s) now with ⟨hexp, -, hper⟩ | ⟨hquiet, hsame⟩
    · have hiff := h.unanswered (h.asked_of_waiting hexp.1)
      rw [hper]
      constructor
      · intro hle _ hdam
        have hzero : s.2.answers = 0 := by
          have hle' : s.2.answers + 1 ≤ 1 := hle
          omega
        have hok := (hiff.mp hzero).2
        rw [hdam] at hok
        cases hok
      · intro htimely
        have hzero := hiff.mpr ⟨hexp.1, Bool.eq_false_iff.mpr (htimely hexp)⟩
        show s.2.answers + 1 ≤ 1
        omega
    · rw [hsame]
      exact ⟨fun _ hexp => absurd hexp hquiet, fun _ => hone⟩

end Steps

/-- **At most one answer for each request** all along a run exactly when the controller replies in
time and nothing comes after a damaged reply. -/
theorem one_answer_iff {b : Bridge} (hb : b.ble.v3.waitingMcuReply = false)
    {events : List RequestEvent} (hG : EachStep periodStep Allowed (b, {}) events) :
    (∀ es, es <+: events → (final periodStep (b, {}) es).2.answers ≤ 1) ↔
      EachStep periodStep Timely (b, {}) events := by
  have hInv : ∀ s e, PeriodInv s → s.2.answers ≤ 1 → Allowed s e → Timely s e →
      PeriodInv (periodStep s e).1 := fun s e h _ ha _ => periodInv_step h ha
  have hP : ∀ s e, PeriodInv s → s.2.answers ≤ 1 → Allowed s e →
      ((periodStep s e).1.2.answers ≤ 1 ↔ Timely s e) := fun s e h hone ha => answers_step h hone ha
  have h0 : PeriodInv (b, ({} : Period)) := ⟨fun _ => ⟨hb, rfl⟩, fun h => by cases h⟩
  exact forall_prefix_iff_eachStep hInv hP h0 (Nat.zero_le 1) hG

/-- A write of the sample request. -/
def sampleWrite (grp crc : UInt8) : RequestWrite := ⟨[readFrame grp crc], show 20 ≤ 65535 by omega⟩

/-- A request, its reply, a request that the controller does not answer, and its timeout. -/
theorem one_answer_sample : (final periodStep ({ ee := fun _ => 0 }, {})
    [.write (sampleWrite 2 0x13) fun _ => 10, .reply (readFrame 2 0x13) fun _ => 50,
      .write (sampleWrite 3 0x15) fun _ => 60, .tick 900]).2.answers ≤ 1 :=
  (one_answer_iff rfl (by decide +kernel)).mpr (by decide +kernel) _ List.prefix_rfl

/-- **Two answers**: the CRC error of a damaged reply, and the timeout of the request that stayed
pending. -/
theorem not_one_answer : ¬ ∀ (b : Bridge) (events : List RequestEvent),
    b.ble.v3.waitingMcuReply = false → EachStep periodStep Allowed (b, {}) events →
    ∀ es, es <+: events → (final periodStep (b, {}) es).2.answers ≤ 1 := by
  intro hall
  have h := hall { ee := fun _ => 0 } [.write (sampleWrite 2 0x13) fun _ => 10,
    .reply (readFrame 2 0x99) fun _ => 50, .tick 900] rfl (by decide +kernel) _ List.prefix_rfl
  exact absurd h (by decide +kernel)

end BleHidUart.Firmware.Requests
