import BleHidUart.Lib.Run
import BleHidUart.V2.Moves

/-!
# Commands and replies on the V2 link

The controller answers the commands in the order in which it gets them, with two bytes each that do
not name the command. The history keeps the commands without a reply; what a reply really answers is
its head. The bridge decodes each reply by the command sent last.

* `credited_run`: a success is credited to the last command, on a reply to that command or to one
  that was not answered yet when it was sent; or it is a default after a timeout.
-/

namespace BleHidUart.V2.Link

open BleHidUart.Board BleHidUart.Lib.Run BleHidUart.Lib.Word BleHidUart.V2.Bridge
open BleHidUart.V2.Moves

/-- The commands the controller has not answered, oldest first, and those it had not answered when
the last command was sent. -/
structure Exchange where
  owed : List BleCmd := []
  before : List BleCmd := []
  deriving DecidableEq

/-- A command reaches the controller. -/
def Exchange.push (h : Exchange) (c : BleCmd) : Exchange :=
  { owed := h.owed ++ [c], before := h.owed }

/-- What an event adds to the history: a reply answers the oldest command. -/
def recordExchange (h : Exchange) (_ : BleState) (i : V2Event) (fx : List Effect) (_ : BleState) :
    Exchange :=
  match i with
  | .reply _ _ _ => (sentCmds fx).foldl Exchange.push { h with owed := h.owed.tail }
  | .app _ _ | .tick _ => (sentCmds fx).foldl Exchange.push h

/-- The bridge with this history. -/
abbrev linkStep : BleState × Exchange → V2Event → (BleState × Exchange) × List Effect :=
  withHistory v2Step recordExchange

/-- The assumption on the controller: a reply answers a command. -/
def RepliesOwed (s : BleState × Exchange) : V2Event → Prop
  | .reply _ _ _ => s.2.owed ≠ []
  | .app _ _ | .tick _ => True

instance (s : BleState × Exchange) (i : V2Event) : Decidable (RepliesOwed s i) := by
  unfold RepliesOwed
  cases i <;> infer_instance

/-! ### Steps -/

variable {s : BleState × Exchange}

theorem linkStep_sends {a : AppCmd} (h : Sends s.1 a) (now : UInt32) :
    (linkStep s (.app a now)).1 = (sent s.1 a.cmd now, s.2.push a.cmd) := by
  refine Prod.ext ?_ ?_
  · rw [withHistory_fst, app_sends h]
  · rw [withHistory_snd]
    unfold recordExchange
    rw [sentCmds_app h]
    rfl

theorem linkStep_answers {a : AppCmd} (h : ¬ Sends s.1 a) (now : UInt32) :
    (linkStep s (.app a now)).1 = s := by
  refine Prod.ext ?_ ?_
  · rw [withHistory_fst, app_answers h]
  · rw [withHistory_snd]
    unfold recordExchange
    rw [app_answers h]
    simp only [sentCmds_localAnswer, List.foldl_nil]

theorem exchange_reply (s : BleState × Exchange) (b0 b1 : UInt8) (now : UInt32) :
    (linkStep s (.reply b0 b1 now)).1.2 = { s.2 with owed := s.2.owed.tail } := by
  rw [withHistory_snd]
  unfold recordExchange
  rw [sentCmds_reply]
  rfl

theorem exchange_tick (s : BleState × Exchange) (now : UInt32) :
    (linkStep s (.tick now)).1.2 = s.2 := by
  rw [withHistory_snd]
  unfold recordExchange
  rw [sentCmds_tick]
  rfl

/-- **The invariant**: a command without a reply is the last one, or was without a reply when the
last one was sent. -/
def LinkInv (s : BleState × Exchange) : Prop :=
  ∀ c ∈ s.2.owed, s.1.controler.lastCmdType = some c ∨ c ∈ s.2.before

/-- **Every event keeps the invariant.** -/
theorem linkInv_step (s : BleState × Exchange) (i : V2Event) (h : LinkInv s) :
    LinkInv (linkStep s i).1 := by
  cases i with
  | app a now =>
    by_cases hs : Sends s.1 a
    · rw [linkStep_sends hs]
      intro c hc
      rcases List.mem_append.mp hc with hc | hc
      · exact .inr hc
      · have hca : c = a.cmd := List.mem_singleton.mp hc
        exact .inl (congrArg some hca.symm)
    · rw [linkStep_answers hs]
      exact h
  | reply b0 b1 now =>
    intro c hc
    rw [exchange_reply] at hc ⊢
    rw [withHistory_fst, lastCmdType_reply]
    exact h c (List.mem_of_mem_tail hc)
  | tick now =>
    intro c hc
    rw [exchange_tick] at hc ⊢
    rw [withHistory_fst, controler_tick]
    exact h c hc

/-! ### Successes -/

/-- The outcome tells the app that the command succeeded: status `00`, a lock state, or fault
bytes. -/
def Succeeds : AppCmd → List UInt8 → Prop
  | .queryUnlock, d => d = [0xAA, 0x02, 0x00, 0x55] ∨ d = [0xAA, 0x02, 0x01, 0x55]
  | .unlock, d => d = [0xAA, 0x03, 0x00, 0x55]
  | .lock, d => d = [0xAA, 0x04, 0x00, 0x55]
  | .faultQuery, d => ∃ b0 b1, d = [0xAA, 0x05, b0, b1, 0x55]

theorem Succeeds.code {a : AppCmd} {d : List UInt8} (h : Succeeds a d) : byteAt d 1 = a.code := by
  cases a with
  | queryUnlock => rcases h with rfl | rfl <;> rfl
  | unlock | lock =>
    obtain rfl := h
    rfl
  | faultQuery =>
    obtain ⟨b0, b1, rfl⟩ := h
    rfl

theorem not_succeeds_localAnswer (s : BleState) (a b : AppCmd) :
    ∀ d ∈ outcomes (localAnswer s a), ¬ Succeeds b d := by
  intro d hd hs
  have hd' : d = [0xAA, 0x02, 0x02, 0x55] := by
    cases a with
    | queryUnlock => exact List.mem_singleton.mp hd
    | unlock =>
      unfold localAnswer at hd
      split_ifs at hd
      · exact List.mem_singleton.mp hd
      · cases hd
    | lock | faultQuery => cases hd
  subst hd'
  obtain rfl : AppCmd.queryUnlock = b := code_injective hs.code
  exact absurd hs (by simp [Succeeds])

theorem lastCmd_of_succeeds {t : Option BleCmd} {b0 b1 : UInt8} {a : AppCmd} {d : List UInt8}
    (hd : replyOutcome t b0 b1 = some d) (hs : Succeeds a d) : t = some a.cmd := by
  obtain ⟨b, rfl⟩ := cmd_of_replyOutcome hd
  have hba : b = a := code_injective ((code_of_replyOutcome hd).symm.trans hs.code)
  rw [hba]

/-- What the app gets for a command without a reply and takes for a success. -/
theorem default_of_timeout {a b : AppCmd} {d : List UInt8}
    (hd : d ∈ outcomes (timeoutOutcome b.cmd)) (hs : Succeeds a d) : b = a ∧
      (d = [0xAA, 0x02, 0x01, 0x55] ∨ d = [0xAA, 0x05, 0x00, 0x00, 0x55]) := by
  have hcode : b = a := by
    obtain ⟨e, he, hcode⟩ := timeoutOutcome_cmd b
    rw [he] at hd
    rw [List.mem_singleton.mp hd] at hs
    exact code_injective (hcode.symm.trans hs.code)
  refine ⟨hcode, ?_⟩
  subst hcode
  cases b with
  | queryUnlock => exact .inl (List.mem_singleton.mp hd)
  | faultQuery => exact .inr (List.mem_singleton.mp hd)
  | unlock | lock =>
    rw [List.mem_singleton.mp hd] at hs
    exact absurd hs (by simp [Succeeds])

/-- What holds when the app is told that a command succeeded: on a reply, the command was the last
one, and the reply answers it or a command that was not answered when it was sent; on a round of the
timer, the command has waited for more than 2000 ms and the app gets the default. -/
def Credited (s : BleState × Exchange) (i : V2Event) : Prop :=
  ∀ a, ∀ d ∈ outcomes (v2Step s.1 i).2, Succeeds a d →
    match i with
    | .app _ _ => False
    | .reply b0 b1 _ => s.1.controler.lastCmdType = some a.cmd ∧
      replyOutcome (some a.cmd) b0 b1 = some d ∧
      ∃ c, s.2.owed.head? = some c ∧ (c = a.cmd ∨ c ∈ s.2.before)
    | .tick now => Expired s.1 now a.cmd ∧
      (d = [0xAA, 0x02, 0x01, 0x55] ∨ d = [0xAA, 0x05, 0x00, 0x00, 0x55])

theorem credited_of_linkInv (s : BleState × Exchange) (i : V2Event) (h : LinkInv s)
    (hr : RepliesOwed s i) : Credited s i := by
  intro a d hd hs
  cases i with
  | app b now =>
    by_cases hb : Sends s.1 b
    · rw [app_sends hb] at hd
      cases hd
    · rw [app_answers hb] at hd
      exact not_succeeds_localAnswer s.1 b a d hd hs
  | reply b0 b1 now =>
    rw [outcomes_reply, Option.mem_toList] at hd
    have hl := lastCmd_of_succeeds hd hs
    obtain ⟨c, cs, howed⟩ := List.exists_cons_of_ne_nil hr
    refine ⟨hl, by rw [← hl]; exact hd, c, by rw [howed]; rfl, ?_⟩
    have hc : c ∈ s.2.owed := by rw [howed]; exact List.mem_cons_self
    rcases h c hc with hlast | hbefore
    · exact .inl (Option.some.inj (hlast.symm.trans hl))
    · exact .inr hbefore
  | tick now =>
    rw [outcomes_tick] at hd
    obtain ⟨fx, hfx, hd'⟩ := List.mem_flatten.mp hd
    obtain ⟨c, hc, rfl⟩ := List.mem_map.mp hfx
    obtain ⟨hmem, hexp⟩ := List.mem_filter.mp hc
    obtain ⟨b, rfl⟩ := cmd_of_mem_timedCmds hmem
    obtain ⟨rfl, hdefault⟩ := default_of_timeout hd' hs
    exact ⟨of_decide_eq_true hexp, hdefault⟩

/-- The bridge after the handshake; only handshakes may be without a reply. -/
structure Handshaken (s : BleState × Exchange) : Prop where
  ok : s.1.controler.handshakeOk
  last : s.1.controler.lastCmdType = some .handshakeRsp
  owed : ∀ c ∈ s.2.owed, c = .handshakeRsp

/-- **A success is credited to the last command**, in every run after the handshake in which the
replies answer commands: on a reply to that command, or to one that was not answered when it was
sent, or as the default after a timeout. -/
theorem credited_run {s : BleState × Exchange} (hs : Handshaken s) {is : List V2Event}
    (hr : EachStep linkStep RepliesOwed s is) : EachStep linkStep Credited s is := by
  have h0 : LinkInv s := by
    intro c hc
    rw [hs.owed c hc]
    exact .inl hs.last
  exact eachStep_of_invariant (fun s i h _ => linkInv_step s i h) credited_of_linkInv h0 hr

theorem handshaken_afterHandshake : Handshaken (afterHandshake, {}) :=
  ⟨rfl, rfl, fun _ hc => absurd hc List.not_mem_nil⟩

/-- An unlock command while a lock command waits. -/
theorem credited_run_sample : EachStep linkStep Credited (afterHandshake, {})
    [.app .lock 100, .app .unlock 150, .reply 0x5A 0xA5 200, .reply 0x5A 0xA5 250, .tick 400] :=
  credited_run handshaken_afterHandshake (by decide)

/-- The app is told of a success only on the reply to that command. -/
def CreditedToCause (s : BleState × Exchange) (i : V2Event) : Prop :=
  ∀ a, ∀ d ∈ outcomes (v2Step s.1 i).2, Succeeds a d →
    (∃ b0 b1 now, i = .reply b0 b1 now) ∧ s.2.owed.head? = some a.cmd

/-- **A reply can be credited to another command**: the acknowledgement of a lock command makes the
app believe that the unlock command sent after it succeeded. -/
theorem not_credited_to_cause : ¬ ∀ s is, Handshaken s → EachStep linkStep RepliesOwed s is →
    EachStep linkStep CreditedToCause s is := by
  intro hall
  have h := hall (afterHandshake, {}) [.app .lock 100, .app .unlock 150, .reply 0x5A 0xA5 200]
    ⟨rfl, rfl, fun _ hc => absurd hc List.not_mem_nil⟩ (by decide)
  have hunlock := (h.2.2.1 .unlock [0xAA, 0x03, 0x00, 0x55] (by decide) rfl).2
  exact absurd hunlock (by decide)

end BleHidUart.V2.Link
