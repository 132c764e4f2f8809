import BleHidUart.Lib.Run
import BleHidUart.V2.Moves

/-!
# The cached lock state

`activeOk` decides whether an unlock command is sent on. The history keeps what the controller
confirmed last: the state it reports, and the effect of the unlock and lock commands it
acknowledges. The app has one command outstanding at a time; a command may stay without a reply.

* `tracks_iff`: the flag agrees with the last confirmation all along a run exactly when no unlock
  command is acknowledged while the flag is false, and no lock command while it is true.
-/

namespace BleHidUart.V2.LockState

open BleHidUart.Board BleHidUart.Lib.Run BleHidUart.V2.Bridge BleHidUart.V2.Moves

inductive LockStatus
  | locked | unlocked
  deriving DecidableEq, Repr

/-- What the reply `b0 b1` of the controller to a command confirms. -/
def confirms (c : BleCmd) (b0 b1 : UInt8) : Option LockStatus :=
  match c with
  | .unlockStatusRsp =>
    if b0 = 0x69 ∧ b1 = 0x96 then some .unlocked
    else if b0 = 0x96 ∧ b1 = 0x69 then some .locked
    else none
  | .unlockRsp => if b0 = 0x5A ∧ b1 = 0xA5 then some .unlocked else none
  | .lockRsp => if b0 = 0x5A ∧ b1 = 0xA5 then some .locked else none
  | .handshakeRsp | .faultQueryRsp => none

/-! ### The link -/

/-- An event of the bridge, or the controller gives up its oldest command without a reply. -/
inductive LinkEvent
  | bridge (i : V2Event)
  | lost
  deriving DecidableEq, Repr

/-- A lost reply is nothing to the bridge. -/
def linkEventStep (s : BleState) : LinkEvent → BleState × List Effect
  | .bridge i => v2Step s i
  | .lost => (s, [])

/-- The commands the controller has not answered, oldest first, and what it confirmed last. -/
structure Confirmations where
  owed : List BleCmd := []
  confirmed : Option LockStatus := none
  deriving DecidableEq

/-- What an event adds to the history: a reply answers the oldest command. -/
def recordConfirmations (h : Confirmations) (_ : BleState) (i : LinkEvent) (fx : List Effect)
    (_ : BleState) : Confirmations :=
  match i with
  | .bridge (.reply b0 b1 _) =>
    { owed := h.owed.tail ++ sentCmds fx
      confirmed := (h.owed.head?.bind fun c => confirms c b0 b1).or h.confirmed }
  | .bridge (.app _ _) | .bridge (.tick _) => { h with owed := h.owed ++ sentCmds fx }
  | .lost => { h with owed := h.owed.tail }

/-- The bridge with this history. -/
abbrev lockStep : BleState × Confirmations → LinkEvent → (BleState × Confirmations) × List Effect :=
  withHistory linkEventStep recordConfirmations

/-- The assumption: the app sends a command when no command is outstanding, and a reply answers a
command. -/
def OneAtATime (s : BleState × Confirmations) : LinkEvent → Prop
  | .bridge (.app _ _) => s.2.owed = []
  | .bridge (.reply _ _ _) => s.2.owed ≠ []
  | .bridge (.tick _) | .lost => True

instance (s : BleState × Confirmations) (i : LinkEvent) : Decidable (OneAtATime s i) := by
  unfold OneAtATime
  rcases i with (_ | _ | _) | _ <;> infer_instance

/-- The flag says what the controller confirmed last. -/
def Tracks (s : BleState × Confirmations) : Prop :=
  s.1.controler.activeOk = true ↔ s.2.confirmed = some .unlocked

/-- An unlock command is answered 'already unlocked' only if this was confirmed last. -/
def AlreadyUnlocked (s : BleState × Confirmations) : LinkEvent → Prop
  | .bridge (.app .unlock now) =>
    [0xAA, 0x02, 0x02, 0x55] ∈ outcomes (v2Step s.1 (.app .unlock now)).2 →
      s.2.confirmed = some .unlocked
  | _ => True

/-- **The condition** on a reply: it does not acknowledge an unlock command while the flag is false,
nor a lock command while it is true. -/
def FlagUpToDate (s : BleState × Confirmations) : LinkEvent → Prop
  | .bridge (.reply b0 b1 _) => b0 = 0x5A ∧ b1 = 0xA5 →
    (s.2.owed.head? = some .unlockRsp → s.1.controler.activeOk = true) ∧
      (s.2.owed.head? = some .lockRsp → s.1.controler.activeOk = false)
  | _ => True

/-! ### Steps -/

variable {s : BleState × Confirmations}

/-- The flag after a reply to a command: only a status reply changes it. -/
def flagAfter (active : Bool) : BleCmd → Option LockStatus → Bool
  | .unlockStatusRsp, some l => decide (l = .unlocked)
  | _, _ => active

theorem activeOk_reply (s : BleState) (c : BleCmd) (b0 b1 : UInt8) (now : UInt32)
    (hl : s.controler.lastCmdType = some c) :
    (v2Step s (.reply b0 b1 now)).1.controler.activeOk =
      flagAfter s.controler.activeOk c (confirms c b0 b1) := by
  rw [v2Step_reply, hl]
  cases c with
  | unlockStatusRsp =>
    simp only [decodeReply, confirms]
    split_ifs
    · rfl
    · rfl
    · exact congrArg ControlerState.activeOk (clearWaiting_controler _ _ _)
  | handshakeRsp | unlockRsp | lockRsp =>
    simp only [decodeReply, flagAfter]
    split_ifs <;> simp only [clearWaiting_controler]
  | faultQueryRsp => exact congrArg ControlerState.activeOk (clearWaiting_controler _ _ _)

theorem lockStep_sends {a : AppCmd} (h : Sends s.1 a) (now : UInt32) :
    (lockStep s (.bridge (.app a now))).1 =
      (sent s.1 a.cmd now, { s.2 with owed := s.2.owed ++ [a.cmd] }) := by
  refine Prod.ext ?_ ?_
  · rw [withHistory_fst, linkEventStep, app_sends h]
  · rw [withHistory_snd, linkEventStep]
    unfold recordConfirmations
    rw [sentCmds_app h]

theorem lockStep_answers {a : AppCmd} (h : ¬ Sends s.1 a) (now : UInt32) :
    (lockStep s (.bridge (.app a now))).1 = s := by
  refine Prod.ext ?_ ?_
  · rw [withHistory_fst, linkEventStep, app_answers h]
  · rw [withHistory_snd, linkEventStep, app_answers h]
    unfold recordConfirmations
    simp only [sentCmds_localAnswer, List.append_nil]

theorem confirmations_reply (s : BleState × Confirmations) (b0 b1 : UInt8) (now : UInt32) :
    (lockStep s (.bridge (.reply b0 b1 now))).1.2 =
      { owed := s.2.owed.tail
        confirmed := (s.2.owed.head?.bind fun c => confirms c b0 b1).or s.2.confirmed } := by
  rw [withHistory_snd, linkEventStep]
  unfold recordConfirmations
  simp only [sentCmds_reply, List.append_nil]

theorem confirmations_tick (s : BleState × Confirmations) (now : UInt32) :
    (lockStep s (.bridge (.tick now))).1.2 = s.2 := by
  rw [withHistory_snd, linkEventStep]
  unfold recordConfirmations
  simp only [sentCmds_tick, List.append_nil]

/-- **The invariant**: a command without a reply is the last one. -/
def LockInv (s : BleState × Confirmations) : Prop :=
  ∀ c ∈ s.2.owed, s.1.controler.lastCmdType = some c

/-- **Every event keeps the invariant**, if the app has one command outstanding at a time. -/
theorem lockInv_step (s : BleState × Confirmations) (i : LinkEvent) (h : LockInv s)
    (hg : OneAtATime s i) : LockInv (lockStep s i).1 := by
  rcases i with (⟨a, now⟩ | ⟨b0, b1, now⟩ | now) | _
  · have hnone : s.2.owed = [] := hg
    by_cases hs : Sends s.1 a
    · rw [lockStep_sends hs]
      intro c hc
      rw [hnone] at hc
      have hca : c = a.cmd := List.mem_singleton.mp hc
      exact congrArg some hca.symm
    · rw [lockStep_answers hs]
      exact h
  · intro c hc
    rw [confirmations_reply] at hc
    rw [withHistory_fst, linkEventStep, lastCmdType_reply]
    exact h c (List.mem_of_mem_tail hc)
  · intro c hc
    rw [confirmations_tick] at hc
    rw [withHistory_fst, linkEventStep, controler_tick]
    exact h c hc
  · exact fun c hc => h c (List.mem_of_mem_tail hc)

/-- A reply keeps the flag right exactly under the condition. The head of the queue is the command
it answers and, by the invariant, the command it is decoded by. -/
theorem tracks_reply_iff (h : LockInv s) (ht : Tracks s) (b0 b1 : UInt8) (now : UInt32)
    (hg : s.2.owed ≠ []) : Tracks (lockStep s (.bridge (.reply b0 b1 now))).1 ↔
      FlagUpToDate s (.bridge (.reply b0 b1 now)) := by
  obtain ⟨c, cs, howed⟩ := List.exists_cons_of_ne_nil hg
  have hl : s.1.controler.lastCmdType = some c := h c (by rw [howed]; exact List.mem_cons_self)
  have hactive := activeOk_reply s.1 c b0 b1 now hl
  unfold Tracks FlagUpToDate
  rw [confirmations_reply, withHistory_fst, linkEventStep, howed, hactive]
  simp only [List.head?_cons, Option.bind_some]
  cases c with
  | handshakeRsp | faultQueryRsp => exact iff_of_true ht fun _ => ⟨by simp, by simp⟩
  | unlockStatusRsp =>
    refine iff_of_true ?_ fun _ => ⟨by simp, by simp⟩
    rcases hc : confirms .unlockStatusRsp b0 b1 with _ | l
    · exact ht
    · simp [flagAfter]
  | unlockRsp | lockRsp =>
    -- the acknowledgement is confirmed, but the flag stays as it is
    by_cases hack : b0 = 0x5A ∧ b1 = 0xA5
    · simp [confirms, hack, flagAfter]
    · simp only [confirms, if_neg hack, Option.none_or]
      exact iff_of_true ht fun hb => absurd hb hack

/-- **Every event keeps the flag right exactly under the condition.** -/
theorem tracks_step_iff (s : BleState × Confirmations) (i : LinkEvent) (h : LockInv s)
    (ht : Tracks s) (hg : OneAtATime s i) : Tracks (lockStep s i).1 ↔ FlagUpToDate s i := by
  rcases i with (⟨a, now⟩ | ⟨b0, b1, now⟩ | now) | _
  · refine iff_of_true ?_ trivial
    by_cases hs : Sends s.1 a
    · rw [lockStep_sends hs]
      exact ht
    · rw [lockStep_answers hs]
      exact ht
  · exact tracks_reply_iff h ht b0 b1 now hg
  · refine iff_of_true ?_ trivial
    unfold Tracks
    rw [confirmations_tick, withHistory_fst, linkEventStep, controler_tick]
    exact ht
  · exact iff_of_true ht trivial

theorem alreadyUnlocked_of_tracks (s : BleState × Confirmations) (i : LinkEvent) (ht : Tracks s) :
    AlreadyUnlocked s i := by
  rcases i with (⟨a, now⟩ | _ | _) | _
  · cases a with
    | unlock =>
      intro hd
      by_cases hs : Sends s.1 .unlock
      · rw [app_sends hs] at hd
        cases hd
      · rw [app_answers hs] at hd
        unfold localAnswer at hd
        split_ifs at hd with hactive
        · exact ht.mp hactive
        · cases hd
    | queryUnlock | lock | faultQuery => trivial
  all_goals trivial

/-- A start: nothing is confirmed yet, the flag is false, and only the last command may be without a
reply. -/
structure Fresh (s : BleState × Confirmations) : Prop where
  active : s.1.controler.activeOk = false
  confirmed : s.2.confirmed = none
  owed : ∀ c ∈ s.2.owed, s.1.controler.lastCmdType = some c

/-- **The flag says what the controller confirmed last, and 'already unlocked' is only answered when
this is unlocked, all along a run exactly when** no reply acknowledges an unlock command while the
flag is false or a lock command while it is true. -/
theorem tracks_iff {s : BleState × Confirmations} (hs : Fresh s) {is : List LinkEvent}
    (hg : EachStep lockStep OneAtATime s is) :
    ((∀ xs, xs <+: is → Tracks (final lockStep s xs)) ∧ EachStep lockStep AlreadyUnlocked s is) ↔
      EachStep lockStep FlagUpToDate s is := by
  have ht : Tracks s := by
    unfold Tracks
    rw [hs.active, hs.confirmed]
    simp
  have hiff : (∀ xs, xs <+: is → Tracks (final lockStep s xs)) ↔
      EachStep lockStep FlagUpToDate s is :=
    forall_prefix_iff_eachStep
      (fun s i h _ hg _ => lockInv_step s i h hg) tracks_step_iff hs.owed ht hg
  rw [hiff]
  refine ⟨fun h => h.1, fun h => ⟨h, ?_⟩⟩
  refine eachStep_iff_forall.mpr fun xs i ys hxs => alreadyUnlocked_of_tracks _ i ?_
  exact hiff.mpr h xs ⟨i :: ys, hxs.symm⟩

theorem fresh_afterHandshake : Fresh (afterHandshake, {}) :=
  ⟨rfl, rfl, fun _ hc => absurd hc List.not_mem_nil⟩

/-- A query that reports unlocked, and an unlock command after it. -/
theorem tracks_query :
    (∀ xs, xs <+: [.bridge (.app .queryUnlock 100), .bridge (.reply 0x69 0x96 200),
        .bridge (.app .unlock 300)] → Tracks (final lockStep (afterHandshake, {}) xs)) ∧
      EachStep lockStep AlreadyUnlocked (afterHandshake, {})
        [.bridge (.app .queryUnlock 100), .bridge (.reply 0x69 0x96 200),
        .bridge (.app .unlock 300)] :=
  (tracks_iff fresh_afterHandshake (by decide)).mpr
    ⟨trivial, fun hack => absurd hack.1 (by decide), trivial, trivial⟩

/-- **The flag can be wrong**: the controller reports unlocked, then acknowledges a lock command;
the flag stays true, and the unlock command after it is answered 'already unlocked' and not sent. -/
theorem not_tracks_lock : ¬ ∀ s is, Fresh s → EachStep lockStep OneAtATime s is →
    (∀ xs, xs <+: is → Tracks (final lockStep s xs)) ∧ EachStep lockStep AlreadyUnlocked s is := by
  intro hall
  have h := (hall (afterHandshake, {}) [.bridge (.app .queryUnlock 100),
    .bridge (.reply 0x69 0x96 200), .bridge (.app .lock 300), .bridge (.reply 0x5A 0xA5 400),
    .bridge (.app .unlock 500)]
    ⟨rfl, rfl, fun _ hc => absurd hc List.not_mem_nil⟩ (by decide)).2
  have hunlock := h.2.2.2.2.1 (by decide)
  exact absurd hunlock (by decide)

end BleHidUart.V2.LockState
