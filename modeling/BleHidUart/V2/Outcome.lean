import BleHidUart.Lib.Run
import BleHidUart.V2.Moves

/-!
# Outcomes of V2 requests

* `cleared_notifies_iff`: a step that clears the waiting flag of the last command emits its outcome
  exactly when the reply is late or one that the decoder knows.
* `at_most_one_outcome`: between two commands of the app there is at most one outcome, if replies
  that decode to an outcome are in time and waited for.
-/

namespace BleHidUart.V2.Outcome

open BleHidUart.Board BleHidUart.Lib.Run BleHidUart.Lib.Word BleHidUart.V2.Bridge
open BleHidUart.V2.Moves

variable {s : BleState} {b0 b1 : UInt8} {now : UInt32}

/-! ### No request is dropped -/

/-- The step clears the waiting flag of the command. -/
def Clears (s : BleState) (a : AppCmd) (i : V2Event) : Prop :=
  ((v2Step s i).1.cmdWait a.cmd).waiting = false

/-- The step emits an outcome for the command. -/
def NotifiesOutcome (s : BleState) (a : AppCmd) (i : V2Event) : Prop :=
  ∃ d ∈ outcomes (v2Step s i).2, byteAt d 1 = a.code

/-- If the event is a reply, it is late or the decoder knows it. -/
def Answered (s : BleState) (a : AppCmd) : V2Event → Prop
  | .reply b0 b1 now => 2000 < now - (s.cmdWait a.cmd).sendTimeMs ∨
    (replyOutcome (some a.cmd) b0 b1).isSome
  | .app _ _ | .tick _ => True

theorem reply_notifies_iff {a : AppCmd} (hl : s.controler.lastCmdType = some a.cmd) :
    NotifiesOutcome s a (.reply b0 b1 now) ↔ (replyOutcome (some a.cmd) b0 b1).isSome := by
  unfold NotifiesOutcome
  rw [outcomes_reply, hl]
  cases h : replyOutcome (some a.cmd) b0 b1 with
  | none => simp
  | some d =>
    exact iff_of_true ⟨d, List.mem_singleton_self d, code_of_replyOutcome h⟩ rfl

/-- **A step that clears the waiting flag of the last command emits an outcome for it exactly when
it is a round of the timer, or its reply is late or known to the decoder.** -/
theorem cleared_notifies_iff {s : BleState} {a : AppCmd} (hw : (s.cmdWait a.cmd).waiting = true)
    (hl : s.controler.lastCmdType = some a.cmd) (i : V2Event) :
    (Clears s a i → NotifiesOutcome s a i) ↔ Answered s a i := by
  cases i with
  | app a' now =>
    refine iff_of_true (fun hc => ?_) trivial
    unfold Clears at hc
    by_cases hs : Sends s a'
    · rw [app_sends hs, waiting_sent, hw] at hc
      simp at hc
    · rw [app_answers hs now, hw] at hc
      cases hc
  | reply b0 b1 now =>
    have hclears : Clears s a (.reply b0 b1 now) ↔
        ¬ 2000 < now - (s.cmdWait a.cmd).sendTimeMs := by
      unfold Clears
      rw [waiting_reply, if_pos hl, hw, Bool.true_and, decide_eq_false_iff_not]
    rw [reply_notifies_iff hl, hclears]
    unfold Answered
    tauto
  | tick now =>
    refine iff_of_true (fun hc => ?_) trivial
    unfold Clears at hc
    rw [waiting_tick, hw, Bool.true_and, Bool.not_eq_false', decide_eq_true_iff] at hc
    obtain ⟨d, hd, hcode⟩ := timeoutOutcome_cmd a
    refine ⟨d, ?_, hcode⟩
    rw [outcomes_tick]
    refine List.mem_flatten.mpr ⟨[d], List.mem_map.mpr ⟨a.cmd, ?_, hd⟩, List.mem_singleton_self d⟩
    exact List.mem_filter.mpr ⟨cmd_mem_timedCmds a, decide_eq_true hc⟩

/-- A lock command that is acknowledged in time. -/
theorem cleared_notifies_lock :
    NotifiesOutcome (v2Step afterHandshake (.app .lock 100)).1 .lock (.reply 0x5A 0xA5 200) :=
  (cleared_notifies_iff (a := .lock) (by decide) (by decide) (.reply 0x5A 0xA5 200)).mpr
    (.inr (by decide)) (by unfold Clears; decide)

/-- **A request can be dropped**: the controller answers a lock command in time, but with other
bytes than `5A A5`. -/
theorem not_notified_unknown :
    ¬ ∀ is a i, ((final v2Step afterHandshake is).cmdWait a.cmd).waiting →
    (final v2Step afterHandshake is).controler.lastCmdType = some a.cmd →
    Clears (final v2Step afterHandshake is) a i →
    NotifiesOutcome (final v2Step afterHandshake is) a i := by
  intro hall
  obtain ⟨d, hd, -⟩ := hall [.app .lock 100] .lock (.reply 0x5A 0x00 200) (by decide) (by decide)
    (by unfold Clears; decide)
  have hnone : outcomes (v2Step (final v2Step afterHandshake [.app .lock 100])
    (.reply 0x5A 0x00 200)).2 = [] := by decide
  rw [hnone] at hd
  cases hd

/-! ### At most one outcome -/

/-- The outcomes since the last command of the app, and the commands sent to the controller that it
has not answered. -/
structure Window where
  outcomes : ℕ := 0
  unanswered : ℕ := 0
  deriving DecidableEq

/-- What an event adds to the history. -/
def recordOutcomes (h : Window) (_ : BleState) (i : V2Event) (fx : List Effect) (_ : BleState) :
    Window :=
  match i with
  | .app _ _ =>
    { outcomes := (outcomes fx).length
      unanswered := h.unanswered + (fx.countP fun f => f matches .uart _) }
  | .reply _ _ _ =>
    { outcomes := h.outcomes + (outcomes fx).length, unanswered := h.unanswered - 1 }
  | .tick _ => { h with outcomes := h.outcomes + (outcomes fx).length }

/-- The bridge with this history. -/
abbrev outcomeStep : BleState × Window → V2Event → (BleState × Window) × List Effect :=
  withHistory v2Step recordOutcomes

/-- The assumption on the app: a command only comes when no command is waiting, or when there was an
outcome since the last one. -/
def OneOutstanding (s : BleState × Window) : V2Event → Prop
  | .app _ _ => (∀ a : AppCmd, (s.1.cmdWait a.cmd).waiting = false) ∨ 0 < s.2.outcomes
  | .reply _ _ _ | .tick _ => True

/-- The assumption on the controller: at most one reply for each command. -/
def OneReply (s : BleState × Window) : V2Event → Prop
  | .reply _ _ _ => 0 < s.2.unanswered
  | .app _ _ | .tick _ => True

/-- **The condition** on a reply: if it decodes to an outcome, the last command is waiting and the
reply is in time. -/
def OnTime (s : BleState × Window) : V2Event → Prop
  | .reply b0 b1 now =>
    ∀ c, s.1.controler.lastCmdType = some c → replyOutcome (some c) b0 b1 ≠ none →
    (s.1.cmdWait c).waiting ∧ now - (s.1.cmdWait c).sendTimeMs ≤ 2000
  | .app _ _ | .tick _ => True

/-- **The invariant**: at most one outcome so far, and only the last command may be waiting, as long
as there was none. -/
structure OutcomeInv (s : BleState × Window) : Prop where
  atMostOne : s.2.outcomes ≤ 1
  waiting : ∀ a : AppCmd, (s.1.cmdWait a.cmd).waiting = true →
    s.1.controler.lastCmdType = some a.cmd ∧ s.2.outcomes = 0

theorem outcomeInv_app {s : BleState × Window} (h : OutcomeInv s) (a : AppCmd) (now : UInt32)
    (hg : OneOutstanding s (.app a now)) : OutcomeInv (outcomeStep s (.app a now)).1 := by
  have hquiet : ∀ b : AppCmd, (s.1.cmdWait b.cmd).waiting = false := by
    rcases hg with hg | hg
    · exact hg
    · intro b
      rw [Bool.eq_false_iff]
      intro hw
      have h0 := (h.waiting b hw).2
      omega
  by_cases hs : Sends s.1 a
  · have hnext : (outcomeStep s (.app a now)).1 =
        (sent s.1 a.cmd now, { outcomes := 0, unanswered := s.2.unanswered + 1 }) := by
      refine Prod.ext ?_ ?_
      · rw [withHistory_fst, app_sends hs]
      · rw [withHistory_snd, app_sends hs]
        rfl
    rw [hnext]
    refine ⟨Nat.zero_le _, fun b hb => ?_⟩
    have hw : ((sent s.1 a.cmd now).cmdWait b.cmd).waiting = true := hb
    rw [waiting_sent, hquiet b] at hw
    by_cases hba : b.cmd = a.cmd
    · exact ⟨congrArg some hba.symm, rfl⟩
    · rw [if_neg hba] at hw
      cases hw
  · have hans := app_answers hs now
    refine ⟨?_, fun b hb => ?_⟩
    · have hcount : (outcomeStep s (.app a now)).1.2.outcomes =
          (outcomes (v2Step s.1 (.app a now)).2).length := rfl
      rw [hcount, hans]
      exact length_outcomes_localAnswer s.1 a
    · rw [withHistory_fst, hans, hquiet b] at hb
      cases hb

theorem outcomeInv_reply {s : BleState × Window} (h : OutcomeInv s) (b0 b1 : UInt8) (now : UInt32)
    (ht : OnTime s (.reply b0 b1 now)) : OutcomeInv (outcomeStep s (.reply b0 b1 now)).1 := by
  have hwait : ∀ a : AppCmd, ((v2Step s.1 (.reply b0 b1 now)).1.cmdWait a.cmd).waiting = true →
      (s.1.cmdWait a.cmd).waiting = true := by
    intro a ha
    rw [waiting_reply] at ha
    split_ifs at ha
    · exact (Bool.and_eq_true_iff.mp ha).1
    · exact ha
  have hcount : (outcomeStep s (.reply b0 b1 now)).1.2.outcomes =
      s.2.outcomes + (replyOutcome s.1.controler.lastCmdType b0 b1).toList.length := by
    rw [withHistory_snd, ← outcomes_reply s.1 b0 b1 now]
    rfl
  have hlast := lastCmdType_reply s.1 b0 b1 now
  rcases hout : replyOutcome s.1.controler.lastCmdType b0 b1 with _ | d
  · rw [hout] at hcount
    refine ⟨by rw [hcount]; exact h.atMostOne, fun a ha => ?_⟩
    obtain ⟨hl, h0⟩ := h.waiting a (hwait a ha)
    exact ⟨hlast.trans hl, by rw [hcount, h0]; rfl⟩
  · -- the outcome comes from the last command, which is one of the app and waits
    obtain ⟨a, hl⟩ := cmd_of_replyOutcome hout
    obtain ⟨hw, hle⟩ := ht a.cmd hl (by rw [← hl, hout]; simp)
    have h0 := (h.waiting a hw).2
    rw [hout, h0] at hcount
    refine ⟨by rw [hcount]; rfl, fun b hb => ?_⟩
    have hb' : ((v2Step s.1 (.reply b0 b1 now)).1.cmdWait b.cmd).waiting = true := hb
    have hlb := (h.waiting b (hwait b hb')).1
    rw [waiting_reply, if_pos hlb] at hb'
    have hba : b.cmd = a.cmd := Option.some.inj (hlb.symm.trans hl)
    rw [hba, decide_eq_false (UInt32.not_lt.mpr hle), Bool.and_false] at hb'
    cases hb'

/-- Only the last command may be waiting, so a round of the timer emits one outcome at most. -/
theorem outcomeInv_tick {s : BleState × Window} (h : OutcomeInv s) (now : UInt32) :
    OutcomeInv (outcomeStep s (.tick now)).1 := by
  have hcount : (outcomeStep s (.tick now)).1.2.outcomes =
      s.2.outcomes + (outcomes (v2Step s.1 (.tick now)).2).length := rfl
  rw [outcomes_tick] at hcount
  have hlast : (outcomeStep s (.tick now)).1.1.controler = s.1.controler := controler_tick s.1 now
  have hwait : ∀ b : AppCmd, ((outcomeStep s (.tick now)).1.1.cmdWait b.cmd).waiting = true →
      (s.1.cmdWait b.cmd).waiting = true ∧ ¬ Expired s.1 now b.cmd := by
    intro b hb
    rw [withHistory_fst, waiting_tick, Bool.and_eq_true, Bool.not_eq_true',
      decide_eq_false_iff_not] at hb
    exact hb
  by_cases hex : ∃ a : AppCmd, Expired s.1 now a.cmd
  · obtain ⟨a, ha⟩ := hex
    obtain ⟨hl, h0⟩ := h.waiting a ha.1
    have hsame : ∀ b : AppCmd, (s.1.cmdWait b.cmd).waiting = true → b.cmd = a.cmd := fun b hb =>
      Option.some.inj ((h.waiting b hb).1.symm.trans hl)
    have honly : timedCmds.filter (fun c => decide (Expired s.1 now c)) =
        timedCmds.filter fun c => decide (c = a.cmd) := by
      refine List.filter_congr fun c hc => decide_eq_decide.mpr ?_
      obtain ⟨b, rfl⟩ := cmd_of_mem_timedCmds hc
      exact ⟨fun hb => hsame b hb.1, fun hb => by rw [hb]; exact ha⟩
    have hone : (timedCmds.filter fun c => decide (c = a.cmd)) = [a.cmd] := by cases a <;> decide
    obtain ⟨d, hd, -⟩ := timeoutOutcome_cmd a
    rw [honly, hone, h0, List.map_singleton, hd] at hcount
    refine ⟨by rw [hcount]; rfl, fun b hb => ?_⟩
    obtain ⟨hw, hnot⟩ := hwait b hb
    rw [hsame b hw] at hnot
    exact absurd ha hnot
  · have hnone : timedCmds.filter (fun c => decide (Expired s.1 now c)) = [] := by
      refine List.filter_eq_nil_iff.mpr fun c hc => ?_
      obtain ⟨b, rfl⟩ := cmd_of_mem_timedCmds hc
      exact fun hb => hex ⟨b, of_decide_eq_true hb⟩
    rw [hnone] at hcount
    refine ⟨by rw [hcount]; exact h.atMostOne, fun b hb => ?_⟩
    obtain ⟨hl, h0⟩ := h.waiting b (hwait b hb).1
    exact ⟨by rw [hlast]; exact hl, by rw [hcount, h0]; rfl⟩

/-- **Every event that meets the condition keeps the invariant.** -/
theorem outcomeInv_step (s : BleState × Window) (i : V2Event) (h : OutcomeInv s)
    (hg : OneOutstanding s i ∧ OnTime s i) : OutcomeInv (outcomeStep s i).1 := by
  cases i with
  | app a now => exact outcomeInv_app h a now hg.1
  | reply b0 b1 now => exact outcomeInv_reply h b0 b1 now hg.2
  | tick now => exact outcomeInv_tick h now

/-- **At most one outcome for each command of the app**, in every run in which the app has one
command outstanding at a time and the replies that decode to an outcome are in time and waited
for. -/
theorem at_most_one_outcome {s : BleState} (hs : ∀ a : AppCmd, (s.cmdWait a.cmd).waiting = false)
    {is : List V2Event} (hone : EachStep outcomeStep OneOutstanding (s, {}) is)
    (htime : EachStep outcomeStep OnTime (s, {}) is) :
    (final outcomeStep (s, {}) is).2.outcomes ≤ 1 := by
  have h0 : OutcomeInv (s, {}) := by
    refine ⟨Nat.zero_le _, fun a ha => ?_⟩
    rw [hs a] at ha
    cases ha
  exact (final_induction outcomeInv_step h0 (eachStep_and.mpr ⟨hone, htime⟩)).atMostOne

/-- A lock command and a query that are answered in time. -/
theorem at_most_one_outcome_sample : (final outcomeStep (afterHandshake, {})
    [.app .lock 100, .reply 0x5A 0xA5 300, .tick 2400, .app .queryUnlock 3000,
      .reply 0x69 0x96 3100]).2.outcomes ≤ 1 :=
  at_most_one_outcome (fun a => by cases a <;> rfl)
    ⟨.inl fun a => by cases a <;> rfl, trivial, trivial, .inr (by decide), trivial, trivial⟩
    ⟨trivial, fun c hc _ => by obtain rfl := Option.some.inj hc; decide, trivial, trivial,
      fun c hc _ => by obtain rfl := Option.some.inj hc; decide, trivial⟩

/-- **A failure can follow a success**: the reply to an unlock command comes after 2050 ms, just
before the round of the timer that reports the timeout. -/
theorem not_at_most_one : ¬ ∀ is, EachStep outcomeStep OneOutstanding (afterHandshake, {}) is →
    EachStep outcomeStep OneReply (afterHandshake, {}) is →
    (final outcomeStep (afterHandshake, {}) is).2.outcomes ≤ 1 := by
  intro hall
  have h := hall [.app .unlock 100, .reply 0x5A 0xA5 2150, .tick 2200]
    ⟨.inl fun a => by cases a <;> rfl, trivial, trivial, trivial⟩
    ⟨trivial, by unfold OneReply; decide, trivial, trivial⟩
  exact absurd h (by decide)

end BleHidUart.V2.Outcome
