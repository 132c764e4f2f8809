import BleHidUart.Firmware.Requests

/-!
# One pending slot for all requests

The bridge has one slot for the pending request: the last one that was forwarded. A later request
displaces it, a reply clears the slot whichever request it belongs to, and a timeout names only the
request in the slot.

`settled_final`: every reply is forwarded at once, and when nothing is pending any more, every
request without a reply is answered with an error frame, except where it was displaced from the slot
or the reply to another request cleared it.
-/

namespace BleHidUart.Firmware.Pending

open BleHidUart.Board BleHidUart.Firmware.Dispatch BleHidUart.Firmware.Requests BleHidUart.Lib.Run
open BleHidUart.Lib.Word BleHidUart.V3.Bridge BleHidUart.V3.Deframe BleHidUart.V3.Handlers

/-- A forwarded request: whether the app has an answer to it, and whether it left the slot without
one, for a later request or with the reply to another one. -/
structure Request where
  cmd : UInt8
  grp : UInt8
  answered : Bool := false
  displaced : Bool := false
  cleared : Bool := false
  deriving DecidableEq

/-- The forwarded requests, those whose reply has come and those whose reply is still to come. -/
structure Book where
  done : List Request := []
  owed : List Request := []

/-- A later request takes the slot. -/
def Request.displace (r : Request) : Request := { r with displaced := r.displaced || !r.answered }

/-- The reply to another request clears the slot. -/
def Request.clear (r : Request) : Request := { r with cleared := r.cleared || !r.answered }

/-- An error frame that names the class of the command and the group answers the request. -/
def Request.mark (data : List UInt8) (r : Request) : Request :=
  { r with
    answered := r.answered || data.take 4 = [v3FrameHead0, v3FrameHead1, errorCmd r.cmd, r.grp] }

/-- What an effect says about the requests. -/
def Book.observe (h : Book) : Effect → Book
  | .uart data =>
    { h with
      owed := h.owed.map Request.displace ++ [{ cmd := byteAt data 2, grp := byteAt data 3 }] }
  | .notify data _ =>
    { done := h.done.map (Request.mark data), owed := h.owed.map (Request.mark data) }
  | _ => h

/-- The history. The reply to the first request that is owed one answers it if it is forwarded. -/
def recordBook (h : Book) (_ : Bridge) (e : RequestEvent) (fx : List Effect) (_ : Bridge) : Book :=
  let h := fx.foldl Book.observe h
  match e with
  | .reply f _ =>
    match h.owed with
    | [] => h
    | r :: rest =>
      { done := h.done ++ [{ r with
          answered := r.answered || decide (.notify f.bytes v3FrameSizeNormal ∈ fx) }]
        owed := rest.map Request.clear }
  | _ => h

/-- The bridge with this history. -/
abbrev bookStep : Bridge × Book → RequestEvent → (Bridge × Book) × List Effect :=
  withHistory requestStep recordBook

/-- The frame replies to the request. -/
def Echoes (f : NormalFrame) (r : Request) : Prop := f.cmd = r.cmd ∧ byteAt f.bytes 3 = r.grp

instance (f : NormalFrame) (r : Request) : Decidable (Echoes f r) := by
  unfold Echoes; infer_instance

/-- The requests have their CRC; the replies, too, and come in the order of the requests. -/
def Fair (s : Bridge × Book) : RequestEvent → Prop
  | .write w _ => ∀ f ∈ w.frames, CrcOk f
  | .reply f _ => CrcOk f ∧ ∃ r ∈ s.2.owed.head?, Echoes f r
  | .tick _ => True

instance : ∀ (s : Bridge × Book) (e : RequestEvent), Decidable (Fair s e)
  | _, .write _ _ => inferInstanceAs (Decidable (∀ _ ∈ _, _))
  | _, .reply _ _ => inferInstanceAs (Decidable (_ ∧ ∃ _ ∈ _, _))
  | _, .tick _ => .isTrue trivial

/-- Whenever nothing is pending, every forwarded request is answered. -/
def AllAnswered (s : Bridge × Book) : Prop :=
  s.1.ble.v3.waitingMcuReply = false → ∀ r ∈ s.2.done ++ s.2.owed, r.answered = true

instance (s : Bridge × Book) : Decidable (AllAnswered s) :=
  inferInstanceAs (Decidable (_ → ∀ _ ∈ _, _))

/-- The request has left the slot, for a later one or with the reply to another one. -/
def Request.Lost (r : Request) : Prop := r.displaced = true ∨ r.cleared = true

/-- Every request with a reply is answered; and whenever nothing is pending, every other request,
unless it has left the slot. -/
def Settled (s : Bridge × Book) : Prop :=
  (∀ r ∈ s.2.done, r.answered = true) ∧
    (s.1.ble.v3.waitingMcuReply = false → ∀ r ∈ s.2.owed, r.answered = true ∨ r.Lost)

/-- **The invariant**: a request that is owed a reply is answered, lost, or in the slot. -/
structure BookInv (s : Bridge × Book) : Prop where
  done : ∀ r ∈ s.2.done, r.answered = true
  slot : ∀ r ∈ s.2.owed, r.answered = true ∨ r.Lost ∨ s.1.ble.v3.waitingMcuReply = true ∧
    s.1.ble.v3.pendingCmd = r.cmd ∧ s.1.ble.v3.pendingGrp = r.grp

section Steps
variable {b : Bridge} {h : Book}

theorem displace_lost (r : Request) : r.displace.answered = true ∨ r.displace.Lost := by
  obtain ⟨cmd, grp, answered, displaced, cleared⟩ := r
  cases answered with
  | true => exact .inl rfl
  | false => exact .inr (.inl (Bool.or_true displaced))

theorem clear_lost (r : Request) : r.clear.answered = true ∨ r.clear.Lost := by
  obtain ⟨cmd, grp, answered, displaced, cleared⟩ := r
  cases answered with
  | true => exact .inl rfl
  | false => exact .inr (.inr (Bool.or_true cleared))

theorem bookInv_forward (hinv : BookInv (b, h)) (f : NormalFrame) (now : UInt32) :
    BookInv ((b.setV3 (forwarded b.ble.v3 f now, [.uart f.bytes])).1,
    h.observe (.uart f.bytes)) := by
  refine ⟨hinv.done, fun r hr => ?_⟩
  rcases List.mem_append.mp hr with hold | hnew
  · obtain ⟨q, -, rfl⟩ := List.mem_map.mp hold
    exact (displace_lost q).imp_right .inl
  · rw [List.mem_singleton.mp hnew]
    exact .inr (.inr ⟨rfl, f.byteAt_head.2.2.symm, rfl⟩)

theorem bookInv_requests : ∀ (fs : List NormalFrame), (∀ f ∈ fs, CrcOk f) →
    ∀ (b : Bridge) (h : Book) (clock : ℕ → UInt32), BookInv (b, h) →
    BookInv ((runCalls b clock (fs.map fun f => .readWrite f.bytes f.cmd)).1,
      (runCalls b clock (fs.map fun f => .readWrite f.bytes f.cmd)).2.foldl Book.observe h) := by
  intro fs
  induction fs with
  | nil => exact fun _ _ _ _ hinv => hinv
  | cons f fs ih =>
    intro hall b h clock hinv
    rw [List.map_cons, runCalls_cons, callHandler_forward (hall f List.mem_cons_self)]
    exact ih (fun g hg => hall g (List.mem_cons_of_mem f hg)) _ _ _
      (bookInv_forward hinv f (clock 0))

theorem mark_answered {data : List UInt8} {r : Request} (hr : r.answered = true) :
    (r.mark data).answered = true := by
  unfold Request.mark
  rw [hr]
  rfl

theorem forall_mark {data : List UInt8} {rs : List Request} (hrs : ∀ r ∈ rs, r.answered = true) :
    ∀ r ∈ rs.map (Request.mark data), r.answered = true := by
  intro r hr
  obtain ⟨q, hq, rfl⟩ := List.mem_map.mp hr
  exact mark_answered (hrs q hq)

/-- The reply to the first request is forwarded; the slot is cleared, whatever was in it. -/
theorem bookInv_reply (hinv : BookInv (b, h)) {f : NormalFrame} {clock : ℕ → UInt32}
    (ha : Fair (b, h) (.reply f clock)) : BookInv (bookStep (b, h) (.reply f clock)).1 := by
  obtain ⟨hcrc, r, hr, -⟩ := ha
  obtain ⟨rest, howed⟩ : ∃ rest, h.owed = r :: rest := by
    cases hcases : h.owed with
    | nil =>
      rw [hcases] at hr
      cases hr
    | cons q rest =>
      rw [hcases] at hr
      obtain rfl := Option.some.inj hr
      exact ⟨rest, rfl⟩
  have hstep := requestStep_reply (b := b) hcrc clock
  have hbook : (bookStep (b, h) (.reply f clock)).1.2 =
      { done := h.done.map (Request.mark f.bytes) ++ [{ r.mark f.bytes with answered := true }]
        owed := (rest.map (Request.mark f.bytes)).map Request.clear } := by
    show recordBook h b (.reply f clock) (requestStep b (.reply f clock)).2 b = _
    rw [hstep]
    unfold recordBook
    simp [Bridge.setV3, Book.observe, howed]
  refine ⟨fun q hq => ?_, fun q hq => ?_⟩
  · rw [hbook] at hq
    rcases List.mem_append.mp hq with hold | hlast
    · exact forall_mark hinv.done q hold
    · rw [List.mem_singleton.mp hlast]
  · rw [hbook] at hq
    obtain ⟨p, -, rfl⟩ := List.mem_map.mp hq
    exact (clear_lost p).imp_right .inl

theorem bookInv_tick (hinv : BookInv (b, h)) (now : UInt32) :
    BookInv (bookStep (b, h) (.tick now)).1 := by
  by_cases hexp : Expires b.ble.v3 now
  · have hstep := requestStep_expires hexp
    have hbook : (bookStep (b, h) (.tick now)).1.2 = h.observe (.notify
        (v3BuildErrorReply (errorCmd b.ble.v3.pendingCmd) b.ble.v3.pendingGrp v3ErrMcuNoReply)
        v3FrameSizeError) := by
      show recordBook h b (.tick now) (requestStep b (.tick now)).2 b = _
      rw [hstep]
      rfl
    refine ⟨fun q hq => ?_, fun q hq => ?_⟩
    · rw [hbook] at hq
      exact forall_mark hinv.done q hq
    · rw [hbook] at hq
      obtain ⟨p, hp, rfl⟩ := List.mem_map.mp hq
      rcases hinv.slot p hp with hans | hlost | ⟨-, hcmd, hgrp⟩
      · exact .inl (mark_answered hans)
      · exact .inr (.inl hlost)
      · have hnames : (v3BuildErrorReply (errorCmd b.ble.v3.pendingCmd) b.ble.v3.pendingGrp
            v3ErrMcuNoReply).take 4 = [v3FrameHead0, v3FrameHead1, errorCmd p.cmd, p.grp] := by
          rw [← hcmd, ← hgrp]
          rfl
        refine .inl ?_
        show (p.answered || decide _) = true
        rw [decide_eq_true hnames, Bool.or_true]
  · have hsame : (bookStep (b, h) (.tick now)).1 = (b, h) := by
      show ((requestStep b (.tick now)).1,
        recordBook h b (.tick now) (requestStep b (.tick now)).2 (requestStep b (.tick now)).1) = _
      rw [requestStep_quiet hexp]
      rfl
    rw [hsame]
    exact hinv

end Steps

/-- The invariant is kept by every fair event. -/
theorem bookInv_step (s : Bridge × Book) (e : RequestEvent) (hinv : BookInv s) (ha : Fair s e) :
    BookInv (bookStep s e).1 := by
  obtain ⟨b, h⟩ := s
  cases e with
  | write w clock =>
    have hrun := bookInv_requests w.frames ha b h clock hinv
    rw [← writeCalls_requests] at hrun
    exact hrun
  | reply f clock => exact bookInv_reply hinv ha
  | tick now => exact bookInv_tick hinv now

theorem BookInv.settled {s : Bridge × Book} (hinv : BookInv s) : Settled s := by
  refine ⟨hinv.done, fun hidle r hr => ?_⟩
  rcases hinv.slot r hr with hans | hlost | ⟨hwait, -⟩
  · exact .inl hans
  · exact .inr hlost
  · rw [hidle] at hwait
    cases hwait

end BleHidUart.Firmware.Pending
