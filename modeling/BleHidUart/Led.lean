import BleHidUart.Board
import BleHidUart.Lib.Run

/-!
# The LED driver

Two lamps and one timer. `set_led_state` stores the state and starts the timer at once; each expiry
calls `led_timer_cb`, which sets the pins and, in the blinking states, starts the timer again for
one round. The green blink counts its rounds in a static variable and switches itself off after 30.

`display` says what the callbacks after a `set_led_state` show, and after which delay.

* `outs_display`: the driver shows exactly this, after any run before.
* `shineCounts_run`: the counter goes on over all green blinks, also those that were cut short, so
  that a blink lasts for what is left of the 30 rounds.
-/

namespace BleHidUart.Led

open BleHidUart.Board BleHidUart.Lib.Run

/-! ### The source -/

/-- The driver: its static variables, the level of the two pins (a lamp is lit at level `0`), and
the duration and the period `k_timer_start` was called with, as long as the timer runs. -/
structure LedDriver where
  ledState : LedState := .off
  ledBlinkOn : Bool := false
  shineCounts : UInt8 := 0
  green : UInt8 := 1
  red : UInt8
  timer : Option (ℕ × ℕ) := none
  deriving DecidableEq, Repr

/-- `user_led_init`. The red pin is left as it is. -/
def userLedInit (red : UInt8) : LedDriver := { red := red }

/-- `k_timer_start`, in milliseconds; the period `0` is `K_NO_WAIT`. -/
def LedDriver.start (d : LedDriver) (duration period : ℕ) : LedDriver :=
  { d with timer := some (duration, period) }

/-- `led_blink_on ? 0 : 1`. -/
def LedDriver.blinkLevel (d : LedDriver) : UInt8 := if d.ledBlinkOn then 0 else 1

/-- `led_timer_cb`. -/
def ledTimerCb (d : LedDriver) : LedDriver :=
  match d.ledState with
  | .greenOn => { d with green := 0, red := 1 }
  | .redOn => { d with green := 1, red := 0 }
  | .redFastBlink =>
    { d with green := 1, red := d.blinkLevel, ledBlinkOn := !d.ledBlinkOn }.start 50 0
  | .redSlowBlink =>
    { d with green := 1, red := d.blinkLevel, ledBlinkOn := !d.ledBlinkOn }.start 200 0
  | .greenFastBlink =>
    let d := { d with green := d.blinkLevel, ledBlinkOn := !d.ledBlinkOn }.start 50 0
    let d := { d with shineCounts := d.shineCounts + 1 }
    if 30 ≤ d.shineCounts then { d with shineCounts := 0, ledState := .off } else d
  | .off => { d with green := 0, red := 1 }

/-- `set_led_state`. -/
def setLedState (d : LedDriver) (s : LedState) : LedDriver :=
  { d with ledState := s, ledBlinkOn := false }.start 0 500

/-- The expiry of the timer: a periodic one is started again before the callback. -/
def ledExpire (d : LedDriver) : LedDriver :=
  match d.timer with
  | none => d
  | some (_, period) =>
    ledTimerCb { d with timer := if period = 0 then none else some (period, period) }

inductive LedEvent
  | set (s : LedState)
  | expire
  deriving DecidableEq, Repr

/-- What a callback shows: how long the timer ran before it, and the lamps that are lit after it. -/
structure Shown where
  delay : ℕ
  green : Bool
  red : Bool
  deriving DecidableEq, Repr

/-- The driver as a machine. -/
def ledStep (d : LedDriver) : LedEvent → LedDriver × List Shown
  | .set s => (setLedState d s, [])
  | .expire => (ledExpire d, d.timer.toList.map fun t =>
      { delay := t.1, green := (ledExpire d).green = 0, red := (ledExpire d).red = 0 })

/-! ### What the callbacks show -/

/-- Callback number `i` after `set_led_state`, when `left` rounds are left to the green blink and
the red lamp is lit or not. -/
def display (s : LedState) (left : ℕ) (red : Bool) (i : ℕ) : Option Shown :=
  match s with
  | .greenOn | .off => some ⟨if i = 0 then 0 else 500, true, false⟩
  | .redOn => some ⟨if i = 0 then 0 else 500, false, true⟩
  | .redFastBlink => some ⟨if i = 0 then 0 else 50, false, i % 2 = 1⟩
  | .redSlowBlink => some ⟨if i = 0 then 0 else 200, false, i % 2 = 1⟩
  | .greenFastBlink =>
    if i < left then some ⟨if i = 0 then 0 else 50, i % 2 = 1, red⟩
    else if i = left then some ⟨50, true, false⟩
    else none

/-- The driver before callback number `i` after `set_led_state s`, in a state that lasts. -/
structure Lasting (s : LedState) (i : ℕ) (d : LedDriver) : Prop where
  state : d.ledState = s
  blink : s = .redFastBlink ∨ s = .redSlowBlink → d.ledBlinkOn = decide (i % 2 = 1)
  timer : d.timer = some (if i = 0 then (0, 500) else match s with
    | .redFastBlink => (50, 0)
    | .redSlowBlink => (200, 0)
    | _ => (500, 500))

/-- The same in the green blink, with `left` rounds in all. -/
structure Blinking (left : ℕ) (red : Bool) (i : ℕ) (d : LedDriver) : Prop where
  state : d.ledState = .greenFastBlink
  counts : d.shineCounts.toNat + left = 30 + i
  more : i < left
  blink : d.ledBlinkOn = decide (i % 2 = 1)
  timer : d.timer = some (if i = 0 then (0, 500) else (50, 0))
  lamp : decide (d.red = 0) = red

/-- The driver before callback number `i`: the green blink is followed by a callback that switches
the green lamp on, and then the timer is stopped. -/
inductive Pending (s : LedState) (left : ℕ) (red : Bool) : ℕ → LedDriver → Prop
  | lasting {i : ℕ} {d : LedDriver} : s ≠ .greenFastBlink → Lasting s i d → Pending s left red i d
  | blinking {i : ℕ} {d : LedDriver} : s = .greenFastBlink → Blinking left red i d →
      Pending s left red i d
  | ending {d : LedDriver} : s = .greenFastBlink → 0 < left → d.ledState = .off →
      d.timer = some (50, 0) → Pending s left red left d
  | stopped {i : ℕ} {d : LedDriver} : s = .greenFastBlink → left < i → d.timer = none →
      Pending s left red i d

theorem decide_succ_odd (i : ℕ) : decide ((i + 1) % 2 = 1) = !decide (i % 2 = 1) := by
  rcases Nat.mod_two_eq_zero_or_one i with h | h
  · have hs : (i + 1) % 2 = 1 := by omega
    simp [h, hs]
  · have hs : (i + 1) % 2 = 0 := by omega
    simp [h, hs]

theorem blinkLevel_eq_zero (d : LedDriver) : decide (d.blinkLevel = 0) = d.ledBlinkOn := by
  unfold LedDriver.blinkLevel
  cases d.ledBlinkOn <;> rfl

section Step
variable {s : LedState} {d : LedDriver} {left i : ℕ} {red : Bool}

theorem pending_set (h : d.shineCounts.toNat < 30) (s : LedState) :
    Pending s (30 - d.shineCounts.toNat) (d.red = 0) 0 (setLedState d s) := by
  by_cases hs : s = .greenFastBlink
  · refine .blinking hs ⟨hs, ?_, by omega, rfl, rfl, rfl⟩
    show d.shineCounts.toNat + _ = 30
    omega
  · exact .lasting hs ⟨rfl, fun _ => rfl, rfl⟩

theorem ledStep_expire {t p : ℕ} (h : d.timer = some (t, p)) : ledStep d .expire =
    (ledTimerCb { d with timer := if p = 0 then none else some (p, p) },
      [{ delay := t
         green := (ledTimerCb { d with timer := if p = 0 then none else some (p, p) }).green = 0
         red :=
           (ledTimerCb { d with timer := if p = 0 then none else some (p, p) }).red = 0 }]) := by
  simp only [ledStep, ledExpire, h]
  rfl

theorem Lasting.step (h : Lasting s i d) (hs : s ≠ .greenFastBlink) :
    (ledStep d .expire).2 = (display s left red i).toList ∧
      Lasting s (i + 1) (ledStep d .expire).1 := by
  have htimer := h.timer
  cases s with
  | greenFastBlink => exact absurd rfl hs
  | off | greenOn | redOn =>
    by_cases h0 : i = 0
    · rw [if_pos h0] at htimer
      rw [ledStep_expire htimer]
      simp only [ledTimerCb, h.state, display, if_pos h0]
      exact ⟨rfl, rfl, nofun, rfl⟩
    · rw [if_neg h0] at htimer
      rw [ledStep_expire htimer]
      simp only [ledTimerCb, h.state, display, if_neg h0]
      exact ⟨rfl, rfl, nofun, rfl⟩
  | redFastBlink | redSlowBlink =>
    have hblink : d.ledBlinkOn = decide (i % 2 = 1) := h.blink (by decide)
    have hlevel : decide ((if d.ledBlinkOn = true then 0 else 1 : UInt8) = 0) =
        decide (i % 2 = 1) := by
      rw [← hblink]
      exact blinkLevel_eq_zero d
    have hnext : (!d.ledBlinkOn) = decide ((i + 1) % 2 = 1) := by rw [hblink, decide_succ_odd]
    by_cases h0 : i = 0
    · rw [if_pos h0] at htimer
      rw [ledStep_expire htimer]
      simp only [ledTimerCb, h.state, LedDriver.start, LedDriver.blinkLevel, hlevel, display,
        if_pos h0]
      exact ⟨rfl, rfl, fun _ => hnext, rfl⟩
    · rw [if_neg h0] at htimer
      rw [ledStep_expire htimer]
      simp only [ledTimerCb, h.state, LedDriver.start, LedDriver.blinkLevel, hlevel, display,
        if_neg h0]
      exact ⟨rfl, rfl, fun _ => hnext, rfl⟩

theorem toNat_succ_shine {c : UInt8} (h : c.toNat < 30) : (c + 1).toNat = c.toNat + 1 := by
  rw [UInt8.toNat_add, Nat.mod_eq_of_lt]
  · rfl
  · show c.toNat + 1 < 256
    omega

theorem ledTimerCb_green (hs : d.ledState = .greenFastBlink) (hlt : d.shineCounts.toNat < 30) :
    ledTimerCb d = if d.shineCounts.toNat = 29 then
        { d with green := d.blinkLevel, ledBlinkOn := !d.ledBlinkOn, timer := some (50, 0)
                 shineCounts := 0, ledState := .off }
      else
        { d with green := d.blinkLevel, ledBlinkOn := !d.ledBlinkOn, timer := some (50, 0)
                 shineCounts := d.shineCounts + 1 } := by
  have hcount : (d.shineCounts + 1).toNat = d.shineCounts.toNat + 1 := toNat_succ_shine hlt
  have hiff : 30 ≤ d.shineCounts + 1 ↔ d.shineCounts.toNat = 29 := by
    rw [UInt8.le_iff_toNat_le, hcount]
    show 30 ≤ _ ↔ _
    omega
  simp only [ledTimerCb, hs, LedDriver.start, hiff]

/-- A round of the green blink: it is the last one when the counter comes to 30. -/
theorem Blinking.step (h : Blinking left red i d) :
    (ledStep d .expire).2 = (display .greenFastBlink left red i).toList ∧
      Pending .greenFastBlink left red (i + 1) (ledStep d .expire).1 := by
  have hcounts := h.counts
  have hmore := h.more
  have hlt : d.shineCounts.toNat < 30 := by omega
  have hlevel : decide (d.blinkLevel = 0) = decide (i % 2 = 1) :=
    (blinkLevel_eq_zero d).trans h.blink
  have hnext : (!d.ledBlinkOn) = decide ((i + 1) % 2 = 1) := by rw [h.blink, decide_succ_odd]
  obtain ⟨t, p, htimer, ht⟩ : ∃ t p, d.timer = some (t, p) ∧ t = if i = 0 then 0 else 50 := by
    rw [h.timer]
    split_ifs
    · exact ⟨_, _, rfl, rfl⟩
    · exact ⟨_, _, rfl, rfl⟩
  have hshown : (display .greenFastBlink left red i).toList =
      [⟨t, decide (d.blinkLevel = 0), d.red = 0⟩] := by
    simp only [display, if_pos hmore, hlevel, h.lamp, ht, Option.toList_some]
  have hcb := fun q => ledTimerCb_green (d := { d with timer := q }) h.state hlt
  rw [ledStep_expire htimer, hshown, hcb]
  by_cases hlast : d.shineCounts.toNat = 29
  · have heq : i + 1 = left := by omega
    rw [if_pos hlast, heq]
    exact ⟨rfl, .ending rfl (by omega) rfl rfl⟩
  · rw [if_neg hlast]
    refine ⟨rfl, .blinking rfl ⟨h.state, ?_, by omega, hnext, rfl, h.lamp⟩⟩
    show (d.shineCounts + 1).toNat + left = _
    rw [toNat_succ_shine hlt]
    omega

/-- **What one callback shows.** -/
theorem pending_step (i : ℕ) (d : LedDriver) (h : Pending s left red i d) :
    (ledStep d .expire).2 = (display s left red i).toList ∧
      Pending s left red (i + 1) (ledStep d .expire).1 := by
  cases h with
  | lasting hs h =>
    obtain ⟨hout, hnext⟩ := h.step hs
    exact ⟨hout, .lasting hs hnext⟩
  | blinking hs h =>
    subst hs
    exact h.step
  | ending hs hpos hoff htimer =>
    subst hs
    have hne : left ≠ 0 := by omega
    rw [ledStep_expire htimer]
    simp only [ledTimerCb, hoff, display, lt_irrefl, if_false]
    exact ⟨rfl, .stopped rfl (Nat.lt_succ_self left) rfl⟩
  | stopped hs hi htimer =>
    subst hs
    have hstep : ledStep d .expire = (d, []) := by simp only [ledStep, ledExpire, htimer]; rfl
    rw [hstep]
    simp only [display, if_neg (show ¬ i < left by omega), if_neg (show ¬ i = left by omega)]
    exact ⟨rfl, .stopped rfl (by omega) htimer⟩

end Step

/-! ### All runs -/

/-- The event is a round of the green blink. -/
def GreenRound (d : LedDriver) (e : LedEvent) : Prop :=
  e = .expire ∧ d.timer ≠ none ∧ d.ledState = .greenFastBlink

instance (d : LedDriver) (e : LedEvent) : Decidable (GreenRound d e) :=
  inferInstanceAs (Decidable (_ ∧ _ ∧ _))

/-- The rounds of the green blink in a run. -/
def greenRounds (d : LedDriver) : List LedEvent → ℕ
  | [] => 0
  | e :: es => (if GreenRound d e then 1 else 0) + greenRounds (ledStep d e).1 es

theorem shineCounts_step {d : LedDriver} (h : d.shineCounts.toNat < 30) (e : LedEvent) :
    (ledStep d e).1.shineCounts.toNat =
      (d.shineCounts.toNat + if GreenRound d e then 1 else 0) % 30 := by
  cases e with
  | set s =>
    rw [if_neg fun hr => nomatch hr.1]
    exact (Nat.mod_eq_of_lt h).symm
  | expire =>
    rcases htimer : d.timer with _ | ⟨t, p⟩
    · rw [if_neg fun hr => hr.2.1 htimer]
      simp only [ledStep, ledExpire, htimer]
      exact (Nat.mod_eq_of_lt h).symm
    · rw [ledStep_expire htimer]
      by_cases hs : d.ledState = .greenFastBlink
      · have hround : GreenRound d .expire := ⟨rfl, by rw [htimer]; nofun, hs⟩
        have hcb := fun q => ledTimerCb_green (d := { d with timer := q }) hs h
        rw [if_pos hround, hcb]
        by_cases hlast : d.shineCounts.toNat = 29
        · rw [if_pos hlast, hlast]
          rfl
        · rw [if_neg hlast, Nat.mod_eq_of_lt (by omega)]
          exact toNat_succ_shine h
      · have hround : ¬ GreenRound d .expire := fun hr => hs hr.2.2
        rw [if_neg hround, Nat.add_zero, Nat.mod_eq_of_lt h]
        unfold ledTimerCb
        cases hstate : d.ledState with
        | greenFastBlink => exact absurd hstate hs
        | off | greenOn | redOn | redFastBlink | redSlowBlink => rfl

/-- **The counter counts the rounds of all green blinks**, modulo 30, also of those that were cut
short. -/
theorem shineCounts_run {d : LedDriver} (h : d.shineCounts.toNat < 30) (es : List LedEvent) :
    (final ledStep d es).shineCounts.toNat = (d.shineCounts.toNat + greenRounds d es) % 30 := by
  induction es generalizing d with
  | nil => exact (Nat.mod_eq_of_lt h).symm
  | cons e es ih =>
    have hstep := shineCounts_step h e
    have hlt : (ledStep d e).1.shineCounts.toNat < 30 := by
      rw [hstep]
      exact Nat.mod_lt _ (by decide)
    rw [final_cons, ih hlt, hstep, greenRounds, Nat.mod_add_mod, Nat.add_assoc]

theorem shineCounts_init (red : UInt8) : (userLedInit red).shineCounts.toNat < 30 := by
  show (0 : UInt8).toNat < 30
  decide

theorem shineCounts_lt (red : UInt8) (es : List LedEvent) :
    (final ledStep (userLedInit red) es).shineCounts.toNat < 30 := by
  rw [shineCounts_run (shineCounts_init red) es]
  exact Nat.mod_lt _ (by decide)

theorem final_sets (d : LedDriver) (ss : List LedState) (s : LedState) :
    final ledStep d ((ss ++ [s]).map .set) = setLedState d s ∧
      outs ledStep d ((ss ++ [s]).map .set) = [] := by
  induction ss generalizing d with
  | nil => exact ⟨rfl, rfl⟩
  | cons t ss ih => exact ⟨(ih (setLedState d t)).1, (ih (setLedState d t)).2⟩

/-- `n` expiries after `set_led_state s` show the first `n` entries of `display`. -/
theorem outs_expiries {d : LedDriver} (h : d.shineCounts.toNat < 30) (s : LedState) (n : ℕ) :
    outs ledStep (setLedState d s) (List.replicate n .expire) = (List.range n).flatMap fun i =>
      (display s (30 - d.shineCounts.toNat) (d.red = 0) i).toList := by
  rw [List.range_eq_range']
  exact (run_replicate pending_step n (pending_set h s)).1

/-- **What the lamps show.** After any run, `n` expiries after `set_led_state s` show the first `n`
entries of `display`: a state that lasts, or a green blink for what is left of the 30 rounds, one
callback that switches the green lamp on, and nothing more. -/
theorem outs_display (red : UInt8) (es : List LedEvent) (s : LedState) (n : ℕ) :
    outs ledStep (userLedInit red) (es ++ .set s :: List.replicate n .expire) =
      outs ledStep (userLedInit red) es ++ (List.range n).flatMap fun i =>
        (display s (30 - greenRounds (userLedInit red) es % 30)
          ((final ledStep (userLedInit red) es).red = 0) i).toList := by
  have hcount := shineCounts_run (shineCounts_init red) es
  have hzero : (userLedInit red).shineCounts.toNat = 0 := rfl
  have hrun := outs_expiries (shineCounts_lt red es) s n
  rw [hcount, hzero, Nat.zero_add] at hrun
  rw [outs_append, outs_cons]
  exact congrArg _ hrun

end BleHidUart.Led
