import BleHidUart.CtrlOta.Transfer
import BleHidUart.Firmware.Calls
import BleHidUart.Firmware.Channel

/-!
# The phases of `main`

`main` stays in a loop as long as an upload is active, sleeps for 100 ms and starts the two timers;
then it returns, and the loop is never entered again. Writes of the app and bytes of the UART come
in all the time. `mainStep` puts these phases on top of the firmware: `main_seen` says that a run of
it is a run of the firmware on the events whose handlers run.

* `phases_of`: when the loop is left and the timers are started, told from the boot and the replies
  of the controller.
-/

namespace BleHidUart.Firmware.Main

open BleHidUart.Board BleHidUart.CtrlOta.Machine BleHidUart.CtrlOta.Metadata
open BleHidUart.CtrlOta.Moves BleHidUart.CtrlOta.Transfer BleHidUart.Firmware.Calls
open BleHidUart.Firmware.Machine BleHidUart.Lib.Run

/-- Where `main` is: in its loop, in the sleep after it, or behind the start of the timers. -/
inductive MainPhase
  | otaLoop | sleep | timers
  deriving DecidableEq, Repr

structure MainState where
  firmware : FirmwareState
  phase : MainPhase := .otaLoop

/-- `main` before its loop: `Ctrl_ota_init` has read the flag. -/
def boot (e : Eeprom) : MainState := { firmware := powerOn e }

/-- An event of the firmware, or the end of `k_msleep(100)`. -/
inductive MainEvent
  | event (x : FirmwareEvent)
  | wakeUp

section Uart
variable (addr : List UInt8)

/-- The handler of the event runs. -/
def run (m : MainState) (x : FirmwareEvent) : MainState × List Effect :=
  let r := firmwareStep addr m.firmware x
  ({ m with firmware := r.1 }, r.2)

/-- `main` as a machine. -/
def mainStep (m : MainState) : MainEvent → MainState × List Effect
  | .event (.mainLoop now) =>
    match m.phase with
    | .otaLoop =>
      if ctrlOtaIsActive m.firmware.ctrl then run addr m (.mainLoop now)
      else ({ m with phase := .sleep }, [])
    | .sleep | .timers => (m, [])
  | .event (.handshakeTick now) =>
    if m.phase = .timers then run addr m (.handshakeTick now) else (m, [])
  | .event (.timeoutTick now) =>
    if m.phase = .timers then run addr m (.timeoutTick now) else (m, [])
  | .event (.appData data clock) => run addr m (.appData data clock)
  | .event (.uart event clock) => run addr m (.uart event clock)
  | .wakeUp => if m.phase = .sleep then ({ m with phase := .timers }, []) else (m, [])

/-! ### The firmware below -/

/-- The handler of the event runs: that of a timer only once it is started, `Ctrl_ota_process` only
in the loop and while the upload is active. -/
def Handled (m : MainState) : FirmwareEvent → Prop
  | .appData _ _ | .uart _ _ => True
  | .handshakeTick _ | .timeoutTick _ => m.phase = .timers
  | .mainLoop _ => m.phase = .otaLoop ∧ ctrlOtaIsActive m.firmware.ctrl

/-- **What an event can do.** -/
inductive MainMove (m : MainState) : MainEvent → MainState → List Effect → Prop
  | handle (x : FirmwareEvent) : Handled m x →
    MainMove m (.event x) (run addr m x).1 (run addr m x).2
  | leave (now : UInt32) : m.phase = .otaLoop → ctrlOtaIsActive m.firmware.ctrl = false →
      MainMove m (.event (.mainLoop now)) { m with phase := .sleep } []
  | wake : m.phase = .sleep → MainMove m .wakeUp { m with phase := .timers } []
  | missed (x : FirmwareEvent) : ¬ Handled m x → (∀ now, x = .mainLoop now → m.phase ≠ .otaLoop) →
      MainMove m (.event x) m []
  | awake : m.phase ≠ .sleep → MainMove m .wakeUp m []

theorem mainStep_move (m : MainState) (y : MainEvent) :
    MainMove addr m y (mainStep addr m y).1 (mainStep addr m y).2 := by
  cases y with
  | wakeUp =>
    by_cases hp : m.phase = .sleep
    · have hstep : mainStep addr m .wakeUp = ({ m with phase := .timers }, []) := if_pos hp
      rw [hstep]
      exact .wake hp
    · have hstep : mainStep addr m .wakeUp = (m, []) := if_neg hp
      rw [hstep]
      exact .awake hp
  | event x =>
    cases x with
    | appData | uart => exact .handle _ trivial
    | handshakeTick now | timeoutTick now =>
      simp only [mainStep]
      split_ifs with hp
      · exact .handle _ hp
      · exact .missed _ hp (by rintro _ ⟨⟩)
    | mainLoop now =>
      simp only [mainStep]
      cases hp : m.phase with
      | otaLoop =>
        dsimp only
        split_ifs with ha
        · exact .handle _ ⟨hp, ha⟩
        · exact .leave now hp (Bool.not_eq_true _ ▸ ha)
      | sleep | timers =>
        refine .missed _ (fun h => ?_) fun _ _ => by rw [hp]; decide
        exact absurd (hp.symm.trans h.1) (by decide)

instance (m : MainState) : (x : FirmwareEvent) → Decidable (Handled m x)
  | .appData _ _ | .uart _ _ => .isTrue trivial
  | .handshakeTick _ | .timeoutTick _ => inferInstanceAs (Decidable (_ = _))
  | .mainLoop _ => inferInstanceAs (Decidable (_ ∧ _))

/-- The events of the firmware whose handlers run. -/
def handled (m : MainState) : MainEvent → List FirmwareEvent
  | .event x => if Handled m x then [x] else []
  | .wakeUp => []

theorem mainStep_handled (m : MainState) (y : MainEvent) :
    (mainStep addr m y).1.firmware = final (firmwareStep addr) m.firmware (handled m y) ∧
      (mainStep addr m y).2 = outs (firmwareStep addr) m.firmware (handled m y) := by
  have hmove := mainStep_move addr m y
  generalize (mainStep addr m y).1 = m', (mainStep addr m y).2 = fx at hmove ⊢
  cases hmove with
  | handle x hx =>
    rw [handled, if_pos hx]
    exact ⟨rfl, (List.append_nil _).symm⟩
  | leave now hp ha =>
    have hno : ¬ Handled m (.mainLoop now) := fun h => absurd (ha.symm.trans h.2) Bool.false_ne_true
    rw [handled, if_neg hno]
    exact ⟨rfl, rfl⟩
  | missed x hx => rw [handled, if_neg hx]; exact ⟨rfl, rfl⟩
  | wake | awake => exact ⟨rfl, rfl⟩

/-- The events of the firmware in a run of `main`. -/
abbrev handledIn (m : MainState) (ys : List MainEvent) : List FirmwareEvent :=
  seen (mainStep addr) handled m ys

/-- **A run of `main` is a run of the firmware** on the events whose handlers run. -/
theorem main_seen (m : MainState) (ys : List MainEvent) :
    (final (mainStep addr) m ys).firmware =
        final (firmwareStep addr) m.firmware (handledIn addr m ys) ∧
      outs (mainStep addr) m ys = outs (firmwareStep addr) m.firmware (handledIn addr m ys) :=
  ⟨final_seen (fun t b => (mainStep_handled addr t b).1) m ys,
    outs_seen (fun t b => (mainStep_handled addr t b).1)
    (fun t b => (mainStep_handled addr t b).2) m ys⟩

/-- `main` after a run from power-on. -/
abbrev after (e : Eeprom) (ys : List MainEvent) : MainState := final (mainStep addr) (boot e) ys

end Uart

/-! ### When the loop is left -/

/-- The replies that decide about the upload: `0x0C`, `0x0D` and `0x0A`, whatever the state is. -/
def IsVerdict (cmd : UInt8) : Prop :=
  cmd = ctrlCmdCrcSuccess ∨ cmd = ctrlCmdCrcFail ∨ cmd = ctrlCmdLenError

instance (cmd : UInt8) : Decidable (IsVerdict cmd) := inferInstanceAs (Decidable (_ ∨ _ ∨ _))

/-- The last of them. -/
def verdict (cmds : List UInt8) : Option UInt8 := (cmds.filter fun cmd => IsVerdict cmd).getLast?

theorem verdict_concat (cmds : List UInt8) (cmd : UInt8) :
    verdict (cmds ++ [cmd]) = if IsVerdict cmd then some cmd else verdict cmds := by
  unfold verdict
  rw [List.filter_append, List.filter_singleton]
  by_cases h : IsVerdict cmd
  · simp [h]
  · simp [h]

/-- The reply a call hands to `Ctrl_ota_handle_reply`. -/
def replyOf : Call → Option UInt8
  | .ctrlReply cmd _ => some cmd
  | _ => none

/-- No upload is active: none at the boot and no verdict since, or the last verdict was the
success. -/
def Settled (e : Eeprom) (cmds : List UInt8) : Prop :=
  verdict cmds = some ctrlCmdCrcSuccess ∨ verdict cmds = none ∧ flagByte e ≠ ctrlOtaFlagReady

/-- The state, as far as the loop looks at it, is told by the boot and the replies. -/
structure VerdictInv (e : Eeprom) (cmds : List UInt8) (g : CtrlOtaCtx) : Prop where
  complete : g.state = .complete ↔ verdict cmds = some ctrlCmdCrcSuccess
  idle : g.state = .idle ↔ verdict cmds = none ∧ flagByte e ≠ ctrlOtaFlagReady

theorem VerdictInv.inactive {e : Eeprom} {cmds : List UInt8} {g : CtrlOtaCtx}
    (h : VerdictInv e cmds g) : ctrlOtaIsActive g = false ↔ Settled e cmds := by
  unfold ctrlOtaIsActive Settled
  rw [← h.complete, ← h.idle, decide_eq_false_iff_not]
  tauto

theorem verdictInv_boot (e : Eeprom) : VerdictInv e [] (ctrlOtaInit e) := by
  by_cases h : flagByte e = ctrlOtaFlagReady
  · rw [ctrlOtaInit_ready h]
    exact ⟨iff_of_false nofun nofun, iff_of_false nofun fun hi => hi.2 h⟩
  · rw [ctrlOtaInit_idle h]
    exact ⟨iff_of_false nofun nofun, iff_of_true rfl ⟨rfl, h⟩⟩

/-- But for the verdicts, nothing leads into `COMPLETE` or `IDLE`, or out of them. -/
theorem inactive_of_move {g g' : CtrlOtaCtx} {e : Eeprom} {i : CtrlEvent} {fx : List Effect}
    (hm : CtrlMove g e i g' fx) (hi : ∀ cmd now, i = .reply cmd now → ¬ IsVerdict cmd) :
    (g'.state = .complete ↔ g.state = .complete) ∧ (g'.state = .idle ↔ g.state = .idle) := by
  cases hm with
  | stay | failed | request => exact ⟨Iff.rfl, Iff.rfl⟩
  | finish _ hs | send _ hs | timeout _ hs | restart _ hs | confirm _ hs | ackLast _ hs
  | ackMore _ hs =>
    rw [hs]
    exact ⟨by simp, by simp⟩
  | erased now hs => rcases hs with hs | hs <;> rw [hs] <;> exact ⟨by simp, by simp⟩
  | success now => exact absurd (.inl rfl) (hi _ now rfl)
  | crcFail now => exact absurd (.inr (.inl rfl)) (hi _ now rfl)
  | refused cmd now hc =>
    rcases hc with ⟨-, hs⟩ | rfl
    · rw [hs]
      exact ⟨by simp, by simp⟩
    · exact absurd (.inr (.inr rfl)) (hi _ now rfl)

theorem verdictInv_reply {e : Eeprom} {cmds : List UInt8} {g : CtrlOtaCtx} (h : VerdictInv e cmds g)
    (cmd : UInt8) (now : UInt32) :
    VerdictInv e (cmds ++ [cmd]) (ctrlOtaHandleReply g cmd now).1 := by
  by_cases hv : IsVerdict cmd
  · have hverdict : verdict (cmds ++ [cmd]) = some cmd := by rw [verdict_concat, if_pos hv]
    rcases hv with rfl | rfl | rfl
    · have hs : (ctrlOtaHandleReply g ctrlCmdCrcSuccess now).1.state = .complete := rfl
      constructor <;> rw [hs, hverdict] <;> simp
    · have hs : (ctrlOtaHandleReply g ctrlCmdCrcFail now).1.state = .error := rfl
      constructor <;> rw [hs, hverdict] <;> simp [ctrlCmdCrcFail, ctrlCmdCrcSuccess]
    · have hs : (ctrlOtaHandleReply g ctrlCmdLenError now).1.state = .filed := rfl
      constructor <;> rw [hs, hverdict] <;> simp [ctrlCmdLenError, ctrlCmdCrcSuccess]
  · have hverdict : verdict (cmds ++ [cmd]) = verdict cmds := by rw [verdict_concat, if_neg hv]
    have hsame := inactive_of_move (ctrlOtaHandleReply_move g e cmd now) fun c t heq => by
      cases heq
      exact hv
    exact ⟨by rw [hsame.1, hverdict, h.complete], by rw [hsame.2, hverdict, h.idle]⟩

section Exit
variable {addr : List UInt8} {e : Eeprom} {f : FirmwareState}

theorem verdictInv_call {cmds : List UInt8} (h : VerdictInv e cmds f.ctrl) (c : Call) :
    VerdictInv e (cmds ++ (replyOf c).toList) (singleStep addr f c).1.ctrl := by
  cases c with
  | ctrlReply cmd now => exact verdictInv_reply h cmd now
  | mainLoop now =>
    have hsame := inactive_of_move (ctrlHandle_move f.ctrl f.bridge.ee (.tick now))
      fun cmd t heq => by cases heq
    rw [show replyOf (.mainLoop now) = none from rfl, Option.toList_none, List.append_nil]
    exact ⟨hsame.1.trans h.complete, hsame.2.trans h.idle⟩
  | handshakeTick now =>
    have hctrl : (singleStep addr f (.handshakeTick now)).1.ctrl = f.ctrl := by
      simp only [singleStep, firmwareStep, handshakeTimerCb]
      split_ifs <;> rfl
    rw [hctrl, show replyOf (.handshakeTick now) = none from rfl, Option.toList_none,
      List.append_nil]
    exact h
  | parsed | protocolData | ucCmd | receiver | timeoutTick =>
    exact (List.append_nil cmds).symm ▸ h

theorem verdictInv_calls {cmds : List UInt8} (h : VerdictInv e cmds f.ctrl) (cs : List Call) :
    VerdictInv e (cmds ++ cs.filterMap replyOf) (final (singleStep addr) f cs).ctrl := by
  induction cs generalizing f cmds with
  | nil => exact (List.append_nil cmds).symm ▸ h
  | cons c cs ih =>
    have hcons : cmds ++ (c :: cs).filterMap replyOf =
        (cmds ++ (replyOf c).toList) ++ cs.filterMap replyOf := by
      rw [List.append_assoc, List.filterMap_cons]
      cases replyOf c <;> rfl
    rw [hcons]
    exact ih (verdictInv_call h c)

variable (addr e)

/-- The replies that reached the upload in a run of `main`. -/
def repliesIn (ys : List MainEvent) : List UInt8 :=
  (callsOfRun addr (powerOn e) (handledIn addr (boot e) ys)).filterMap replyOf

variable {addr e}

theorem inactive_iff (ys : List MainEvent) :
    ctrlOtaIsActive (after addr e ys).firmware.ctrl = false ↔ Settled e (repliesIn addr e ys) := by
  have hinv : VerdictInv e ([] ++ repliesIn addr e ys)
      (final (singleStep addr) (powerOn e)
        (callsOfRun addr (powerOn e) (handledIn addr (boot e) ys))).ctrl :=
    verdictInv_calls (verdictInv_boot e) _
  rw [final_calls] at hinv
  rw [(main_seen addr (boot e) ys).1]
  exact hinv.inactive

variable (addr e)

/-- A round of the loop that finds no upload, after the run `xs`. -/
def LeftAt (ys xs : List MainEvent) (now : UInt32) (zs : List MainEvent) : Prop :=
  ys = xs ++ .event (.mainLoop now) :: zs ∧ Settled e (repliesIn addr e xs)

/-- **The phases, told from the boot and the replies.** -/
structure PhasesOf (ys : List MainEvent) : Prop where
  left : (after addr e ys).phase ≠ .otaLoop ↔ ∃ xs now zs, LeftAt addr e ys xs now zs
  timers : (after addr e ys).phase = .timers ↔
    ∃ xs now zs, LeftAt addr e ys xs now zs ∧ MainEvent.wakeUp ∈ zs

variable {addr e}

theorem phase_step (m : MainState) (y : MainEvent) :
    ((mainStep addr m y).1.phase ≠ .otaLoop ↔ m.phase ≠ .otaLoop ∨
      (∃ now, y = .event (.mainLoop now)) ∧ ctrlOtaIsActive m.firmware.ctrl = false) ∧
    ((mainStep addr m y).1.phase = .timers ↔ m.phase = .timers ∨ y = .wakeUp ∧
      m.phase ≠ .otaLoop) := by
  have hmove := mainStep_move addr m y
  generalize (mainStep addr m y).1 = m', (mainStep addr m y).2 = fx at hmove ⊢
  cases hmove with
  | handle x hx =>
    refine ⟨⟨.inl, fun h => h.elim id ?_⟩, ⟨.inl, fun h => h.elim id fun hw => nomatch hw.1⟩⟩
    rintro ⟨⟨now, heq⟩, ha⟩
    cases heq
    exact absurd (ha.symm.trans hx.2) Bool.false_ne_true
  | leave now hp ha =>
    refine ⟨iff_of_true (fun h => nomatch h) (.inr ⟨⟨now, rfl⟩, ha⟩),
      iff_of_false (fun h => nomatch h) ?_⟩
    rintro (h | h)
    · rw [hp] at h
      cases h
    · cases h.1
  | wake hp =>
    have hne : m.phase ≠ .otaLoop := by rw [hp]; decide
    exact ⟨iff_of_true (fun h => nomatch h) (.inl hne), iff_of_true rfl (.inr ⟨rfl, hne⟩)⟩
  | missed x hx hloop =>
    refine ⟨⟨.inl, fun h => h.elim id ?_⟩, ⟨.inl, fun h => h.elim id fun hw => nomatch hw.1⟩⟩
    rintro ⟨⟨now, heq⟩, -⟩
    cases heq
    exact hloop now rfl
  | awake hp =>
    refine ⟨⟨.inl, fun h => h.elim id fun hw => nomatch hw.1⟩,
      ⟨.inl, fun h => h.elim id fun hw => ?_⟩⟩
    cases hm : m.phase with
    | otaLoop => exact absurd hm hw.2
    | sleep => exact absurd hm hp
    | timers => rfl

theorem timers_stay (addr : List UInt8) {m : MainState} (h : m.phase = .timers)
    (ys : List MainEvent) : (final (mainStep addr) m ys).phase = .timers :=
  have hstep : ∀ (m : MainState) (y : MainEvent), m.phase = .timers →
      (mainStep addr m y).1.phase = .timers :=
    fun m y hm => (phase_step m y).2.mpr (.inl hm)
  final_invariant hstep h ys

theorem leftAt_concat (ys : List MainEvent) (y : MainEvent) (xs : List MainEvent) (now : UInt32)
    (zs : List MainEvent) : LeftAt addr e (ys ++ [y]) xs now zs ↔
      (xs = ys ∧ y = .event (.mainLoop now) ∧ zs = [] ∧ Settled e (repliesIn addr e ys)) ∨
        ∃ ws, zs = ws ++ [y] ∧ LeftAt addr e ys xs now ws := by
  constructor
  · rintro ⟨heq, hset⟩
    rcases List.eq_nil_or_concat zs with rfl | ⟨ws, w, rfl⟩
    · obtain ⟨rfl, hy⟩ := List.append_inj' heq rfl
      exact .inl ⟨rfl, List.singleton_injective hy, rfl, hset⟩
    · rw [List.concat_eq_append, ← List.cons_append, ← List.append_assoc] at heq
      obtain ⟨hys, hy⟩ := List.append_inj' heq rfl
      obtain rfl := List.singleton_injective hy
      exact .inr ⟨ws, List.concat_eq_append, hys, hset⟩
  · rintro (⟨rfl, rfl, rfl, hset⟩ | ⟨ws, rfl, heq, hset⟩)
    · exact ⟨rfl, hset⟩
    · exact ⟨by rw [heq, List.append_assoc, List.cons_append], hset⟩

/-- **The loop is left exactly at a round at which the last verdict of the controller was the
success**, or there was neither an upload at the boot nor a verdict; the timers are started at the
end of the sleep. -/
theorem phases_of (ys : List MainEvent) : PhasesOf addr e ys := by
  induction ys using List.reverseRecOn with
  | nil =>
    have hno : ∀ xs now zs, ¬ LeftAt addr e [] xs now zs := fun xs now zs h =>
      absurd h.1.symm (List.append_ne_nil_of_right_ne_nil xs (List.cons_ne_nil _ zs))
    exact ⟨iff_of_false (fun h => h rfl) fun ⟨xs, now, zs, h⟩ => hno xs now zs h,
      iff_of_false nofun fun ⟨xs, now, zs, h, _⟩ => hno xs now zs h⟩
  | append_singleton ys y ih =>
    have hafter : after addr e (ys ++ [y]) = (mainStep addr (after addr e ys) y).1 :=
      final_append _ _ _ _
    obtain ⟨hleft, htimers⟩ := @phase_step addr (after addr e ys) y
    rw [inactive_iff, ih.left] at hleft
    rw [ih.left, ih.timers] at htimers
    constructor
    · rw [hafter, hleft]
      constructor
      · rintro (⟨xs, now, zs, h⟩ | ⟨⟨now, rfl⟩, hset⟩)
        · exact ⟨xs, now, zs ++ [y], (leftAt_concat ys y _ _ _).mpr (.inr ⟨zs, rfl, h⟩)⟩
        · exact ⟨ys, now, [], rfl, hset⟩
      · rintro ⟨xs, now, zs, h⟩
        rcases (leftAt_concat ys y _ _ _).mp h with ⟨-, hy, -, hset⟩ | ⟨ws, -, h⟩
        · exact .inr ⟨⟨now, hy⟩, hset⟩
        · exact .inl ⟨xs, now, ws, h⟩
    · rw [hafter, htimers]
      constructor
      · rintro (⟨xs, now, zs, h, hw⟩ | ⟨rfl, xs, now, zs, h⟩)
        · exact ⟨xs, now, zs ++ [y], (leftAt_concat ys y _ _ _).mpr (.inr ⟨zs, rfl, h⟩),
            List.mem_append_left _ hw⟩
        · exact ⟨xs, now, zs ++ [.wakeUp], (leftAt_concat ys _ _ _ _).mpr (.inr ⟨zs, rfl, h⟩),
            List.mem_append_right _ (List.mem_singleton_self _)⟩
      · rintro ⟨xs, now, zs, h, hw⟩
        rcases (leftAt_concat ys y _ _ _).mp h with ⟨-, -, rfl, -⟩ | ⟨ws, rfl, hold⟩
        · cases hw
        · rcases List.mem_append.mp hw with hw | hw
          · exact .inl ⟨xs, now, ws, hold, hw⟩
          · exact .inr ⟨(List.mem_singleton.mp hw).symm, xs, now, ws, hold⟩

end Exit
end BleHidUart.Firmware.Main
