import BleHidUart.Firmware.Link
import BleHidUart.Firmware.Requests

/-!
# Commands that are answered

The app gives a command (query, unlock, lock, fault query) and waits for the outcome before the next
one. An unlock command is refused at once while the cached lock state is unlocked; any other goes to
the controller, which answers within 2000 ms with one of the replies to the command, or is silent
until a round of the timer. Meanwhile anything else may reach `main`, but for commands of the app
and other strings of two bytes from the controller.

`main_answers`: `main` refines `talkStep`, which takes one exchange a step and knows nothing but the
lock state and the receiver; each exchange ends with one answer.
-/

namespace BleHidUart.Firmware.Commands

open BleHidUart.Board BleHidUart.Firmware.Calls BleHidUart.Firmware.Channel
open BleHidUart.Firmware.Dispatch BleHidUart.Firmware.Link BleHidUart.Firmware.Machine
open BleHidUart.Firmware.Main BleHidUart.Firmware.Parsed
open BleHidUart.Lib.Run BleHidUart.Uart.Receiver BleHidUart.V2.Bridge BleHidUart.V2.LockState
open BleHidUart.V2.Moves BleHidUart.V3.Parser
open BleHidUart.Firmware.Requests (IsNotify)

/-! ### Exchanges -/

/-- What becomes of a command: it is refused at once, the UART event brings the reply `b0 b1`, or a
round of the timer finds none. -/
inductive Outcome
  | refused
  | replied (event : UartEvent) (clock : ℕ → UInt32) (b0 b1 : UInt8)
  | silent (now : UInt32)

/-- The event of the outcome. -/
def Outcome.events : Outcome → List MainEvent
  | .refused => []
  | .replied event clock _ _ => [.event (.uart event clock)]
  | .silent now => [.event (.timeoutTick now)]

/-- A command of the app, what reaches `main` until its outcome, and from then to the next
command. -/
structure Exchange where
  cmd : AppCmd
  clock : ℕ → UInt32
  waiting : List MainEvent
  outcome : Outcome
  rest : List MainEvent

/-- The events of the exchange. -/
def Exchange.events (x : Exchange) : List MainEvent :=
  .event (.appData [0x55, x.cmd.code, 0xAA] x.clock) :: (x.waiting ++ x.outcome.events ++ x.rest)

/-- The command on the UART and the answer to the app. -/
def Exchange.effects (x : Exchange) : List Effect :=
  match x.outcome with
  | .refused => [alreadyUnlocked]
  | .replied _ _ b0 b1 => .uart (cmdBytes x.cmd.cmd) :: toldReply x.cmd b0 b1
  | .silent _ => [.uart (cmdBytes x.cmd.cmd), toldTimeout x.cmd]

/-- The lock state after the exchange: only a reply to a query sets it. -/
def Exchange.unlockedAfter (x : Exchange) (unlocked : Bool) : Bool :=
  match x.outcome with
  | .replied _ _ b0 b1 => flagAfter unlocked x.cmd.cmd (confirms x.cmd.cmd b0 b1)
  | .refused | .silent _ => unlocked

/-- What the app and the controller have to know of the firmware. -/
structure Talk where
  rx : RxState
  unlocked : Bool

/-- The firmware, one exchange a step. -/
def talkStep (t : Talk) (x : Exchange) : Talk × List Effect :=
  (⟨final rxStep t.rx (uartIn x.events), x.unlockedAfter t.unlocked⟩, x.effects)

/-- No round of the timer finds the command of the time `t₀` expired. -/
def Early (t₀ : UInt32) : MainEvent → Prop
  | .event (.timeoutTick now) => now - t₀ ≤ 2000
  | _ => True

instance (t₀ : UInt32) : (y : MainEvent) → Decidable (Early t₀ y)
  | .event (.timeoutTick now) => inferInstanceAs (Decidable (now - t₀ ≤ 2000))
  | .event (.uart _ _) | .event (.handshakeTick _) | .event (.appData _ _) | .event (.mainLoop _)
  | .wakeUp => .isTrue trivial

/-- `b0 b1` is one of the replies to the command. -/
def Known (a : AppCmd) (b0 b1 : UInt8) : Prop := (replyOutcome (some a.cmd) b0 b1).isSome

instance (a : AppCmd) (b0 b1 : UInt8) : Decidable (Known a b0 b1) :=
  inferInstanceAs (Decidable (_ = true))

/-- The outcome fits the lock state and the time of the command; the receiver, in the state `u`,
takes the event for a string of two bytes, one of the replies to the command. -/
def Outcome.Fits (u : RxState) (a : AppCmd) (t₀ : UInt32) (unlocked : Bool) : Outcome → Prop
  | .refused => Refuses unlocked a
  | .replied event clock b0 b1 => ¬Refuses unlocked a ∧ Known a b0 b1 ∧
      .protocolData [b0, b1] ∈ callsOf (rxStep u event).2 ∧ clock 0 - t₀ ≤ 2000
  | .silent now => ¬Refuses unlocked a ∧ 2000 < now - t₀

/-- The app and the controller do their part. -/
structure Exchange.Ok (t : Talk) (x : Exchange) : Prop where
  waiting : Undisturbed t.rx x.waiting
  early : ∀ y ∈ x.waiting, Early (x.clock 0) y
  outcome : x.outcome.Fits (final rxStep t.rx (uartIn x.waiting)) x.cmd (x.clock 0) t.unlocked
  rest : Undisturbed (final rxStep t.rx (uartIn (x.waiting ++ x.outcome.events))) x.rest

instance (u : RxState) (a : AppCmd) (t₀ : UInt32) (unlocked : Bool) (o : Outcome) :
    Decidable (o.Fits u a t₀ unlocked) := by
  unfold Outcome.Fits
  cases o <;> infer_instance

instance (t : Talk) (x : Exchange) : Decidable (x.Ok t) :=
  decidable_of_iff (_ ∧ _ ∧ _ ∧ _)
    ⟨fun h => ⟨h.1, h.2.1, h.2.2.1, h.2.2.2⟩, fun h => ⟨h.1, h.2, h.3, h.4⟩⟩

/-- The firmware is in the state of the talk, with no command waiting and with its timers
running. -/
structure Agrees (m : MainState) (t : Talk) : Prop where
  rx : m.firmware.rx = t.rx
  link : Idle (linkOf m.firmware) t.unlocked
  phase : m.phase = .timers

section Talk
variable (addr : List UInt8) {m : MainState} {t : Talk} {x : Exchange}

theorem outs_commands_append (ys zs : List MainEvent) :
    commandEffects (outs (mainStep addr) m (ys ++ zs)) =
    commandEffects (outs (mainStep addr) m ys) ++
      commandEffects (outs (mainStep addr) (final (mainStep addr) m ys) zs) := by
  rw [outs_append, commandEffects_append]

theorem main_command (m : MainState) (a : AppCmd) (clock : ℕ → UInt32) :
    let r := v2Step m.firmware.bridge.ble (.app a (clock 0))
    let m' := (mainStep addr m (.event (.appData [0x55, a.code, 0xAA] clock))).1
    linkOf m'.firmware = (r.1.controler, r.1.cmdWait) ∧ m'.firmware.rx = m.firmware.rx ∧
      m'.phase = m.phase ∧
      (mainStep addr m (.event (.appData [0x55, a.code, 0xAA] clock))).2 = r.2 := by
  have hcalls : v3HandleAppData [0x55, a.code, 0xAA] 3 = [.appCmd a.code [0x55, a.code, 0xAA]] := by
    cases a <;> decide
  have hrun : firmwareStep addr m.firmware (.appData [0x55, a.code, 0xAA] clock) =
      singleStep addr m.firmware (.parsed (.appCmd a.code [0x55, a.code, 0xAA]) (clock 0)) := by
    show (let r := runCalls m.firmware.bridge clock (v3HandleAppData [0x55, a.code, 0xAA] 3)
      ({ m.firmware with bridge := r.1 }, r.2)) = _
    rw [hcalls, runCalls_singleton]
    rfl
  have hmain : mainStep addr m (.event (.appData [0x55, a.code, 0xAA] clock)) =
      run addr m (.appData [0x55, a.code, 0xAA] clock) := rfl
  dsimp only
  rw [hmain, run, hrun]
  exact ⟨rfl, rfl, rfl, rfl⟩

theorem main_reply (m : MainState) {event : UartEvent} {data : List UInt8}
    (hdata : .protocolData data ∈ callsOf (rxStep m.firmware.rx event).2) (clock : ℕ → UInt32) :
    let r := handleProtocolData m.firmware.bridge.ble data (clock 0)
    linkOf (mainStep addr m (.event (.uart event clock))).1.firmware =
        (r.1.controler, r.1.cmdWait) ∧
      commandEffects (mainStep addr m (.event (.uart event clock))).2 = commandEffects r.2 := by
  have hcalls : callsOf (rxStep m.firmware.rx event).2 = [.protocolData data, .ucCmd data] := by
    rcases calls_cases m.firmware.rx event with hno | ⟨data', hboth⟩
    · exact absurd rfl (hno _ hdata data)
    · rw [hboth] at hdata ⊢
      rcases List.mem_cons.mp hdata with heq | hin
      · rw [RxCall.protocolData.inj heq]
      · cases List.mem_singleton.mp hin
  have hmain : mainStep addr m (.event (.uart event clock)) = run addr m (.uart event clock) := rfl
  dsimp only
  rw [hmain, run, firmwareStep]
  dsimp only
  rw [hcalls]
  simp only [rxCalls, rxCall, List.append_nil, commandEffects_append,
    commandEffects_foreign (foreign_address addr data)]
  exact ⟨trivial, trivial⟩

theorem main_tick (hphase : m.phase = .timers) (now : UInt32) :
    let r := checkTimeoutTimerCb m.firmware.bridge.ble now
    linkOf (mainStep addr m (.event (.timeoutTick now))).1.firmware = (r.1.controler, r.1.cmdWait) ∧
      (mainStep addr m (.event (.timeoutTick now))).2 = r.2 := by
  have hmain : mainStep addr m (.event (.timeoutTick now)) = run addr m (.timeoutTick now) :=
    if_pos hphase
  dsimp only
  rw [hmain]
  exact ⟨rfl, rfl⟩

theorem link_waits {unlocked : Bool} {a : AppCmd} {t₀ : UInt32}
    (h : Asked (linkOf m.firmware) unlocked a t₀) {ys : List MainEvent}
    (hys : Undisturbed m.firmware.rx ys) (hearly : ∀ y ∈ ys, Early t₀ y) :
    Asked (linkOf (final (mainStep addr) m ys).firmware) unlocked a t₀ ∧
      commandEffects (outs (mainStep addr) m ys) = [] := by
  obtain ⟨hlink, heffects⟩ := link_run addr h.handshake hys fun now hmem b hexp => by
    have hlate := ((Asked.expired_iff h b).mp hexp).2
    exact absurd hlate (UInt32.not_lt.mpr (hearly _ hmem))
  rw [hlink]
  exact ⟨h, heffects⟩

theorem link_rests {unlocked : Bool} (h : Idle (linkOf m.firmware) unlocked) {ys : List MainEvent}
    (hys : Undisturbed m.firmware.rx ys) :
    Idle (linkOf (final (mainStep addr) m ys).firmware) unlocked ∧
      commandEffects (outs (mainStep addr) m ys) = [] := by
  obtain ⟨hlink, heffects⟩ := link_run addr h.handshake hys fun now _ a hexp => by
    have hwaiting : (m.firmware.bridge.ble.cmdWait a.cmd).waiting = false := h.idle a
    exact Bool.false_ne_true (hwaiting.symm.trans hexp.1)
  rw [hlink]
  exact ⟨h, heffects⟩

theorem answer_outcome (hm : Asked (linkOf m.firmware) t.unlocked x.cmd (x.clock 0))
    (hphase : m.phase = .timers)
    (hfits : x.outcome.Fits m.firmware.rx x.cmd (x.clock 0) t.unlocked)
    (hsent : ¬Refuses t.unlocked x.cmd) :
    .uart (cmdBytes x.cmd.cmd) :: commandEffects (outs (mainStep addr) m x.outcome.events) =
        x.effects ∧
      Idle (linkOf (final (mainStep addr) m x.outcome.events).firmware)
        (x.unlockedAfter t.unlocked) := by
  unfold Exchange.effects Exchange.unlockedAfter
  cases hout : x.outcome with
  | refused =>
    rw [hout] at hfits
    exact absurd hfits hsent
  | replied event clock b0 b1 =>
    rw [hout] at hfits
    obtain ⟨-, -, hdata, htime⟩ := hfits
    obtain ⟨hlink, heffects⟩ := main_reply addr m hdata clock
    obtain ⟨hidle, htold⟩ := link_reply hm htime b0 b1
    rw [Outcome.events, outs_cons, outs_nil, List.append_nil, final_cons, final_nil, heffects,
      htold, hlink]
    exact ⟨rfl, hidle⟩
  | silent now =>
    rw [hout] at hfits
    obtain ⟨hlink, heffects⟩ := main_tick addr hphase now
    obtain ⟨hidle, htold⟩ := link_expired hm hfits.2
    rw [Outcome.events, outs_cons, outs_nil, List.append_nil, final_cons, final_nil, heffects,
      htold, hlink]
    exact ⟨rfl, hidle⟩

theorem answer_until (hx : x.Ok t) (hm : Agrees m t) :
    let ys := .event (.appData [0x55, x.cmd.code, 0xAA] x.clock) :: (x.waiting ++ x.outcome.events)
    commandEffects (outs (mainStep addr) m ys) = x.effects ∧
      Idle (linkOf (final (mainStep addr) m ys).firmware) (x.unlockedAfter t.unlocked) := by
  obtain ⟨hlink, hrx, hphase, heffects⟩ := main_command addr m x.cmd x.clock
  dsimp only at hlink hrx hphase heffects ⊢
  rw [outs_cons, commandEffects_append, heffects, final_cons, outs_commands_append, final_append]
  rw [hm.rx] at hrx
  rw [hm.phase] at hphase
  generalize (mainStep addr m (.event (.appData [0x55, x.cmd.code, 0xAA] x.clock))).1 = m₁
    at hlink hrx hphase ⊢
  have hwaiting : Undisturbed m₁.firmware.rx x.waiting := hrx ▸ hx.waiting
  have hrx₂ : (final (mainStep addr) m₁ x.waiting).firmware.rx =
      final rxStep t.rx (uartIn x.waiting) := by
    rw [(parsed_run addr m₁ x.waiting).2, hrx]
  by_cases hrefuses : Refuses t.unlocked x.cmd
  · obtain ⟨hsame, htold⟩ := link_refuses hm.link hrefuses (x.clock 0)
    rw [hsame] at hlink
    have hidle : Idle (linkOf m₁.firmware) t.unlocked := by
      rw [hlink]
      exact hm.link
    obtain ⟨hend, hquiet⟩ := link_rests addr hidle hwaiting
    have hout : x.outcome = .refused := by
      have hfits := hx.outcome
      cases h : x.outcome with
      | refused => rfl
      | replied | silent =>
        rw [h] at hfits
        exact absurd hrefuses hfits.1
    unfold Exchange.effects Exchange.unlockedAfter
    rw [htold, hquiet, hout]
    exact ⟨rfl, hend⟩
  · obtain ⟨hasked, hsent⟩ := link_sends hm.link hrefuses (x.clock 0)
    rw [← hlink] at hasked
    obtain ⟨hstill, hquiet⟩ := link_waits addr hasked hwaiting hx.early
    rw [hsent, hquiet]
    exact answer_outcome addr hstill (timers_stay addr hphase x.waiting)
      (hrx₂ ▸ hx.outcome) hrefuses

/-- **One exchange.** -/
theorem answer_exchange (hx : x.Ok t) (hm : Agrees m t) :
    commandEffects (outs (mainStep addr) m x.events) = (talkStep t x).2 ∧
      Agrees (final (mainStep addr) m x.events) (talkStep t x).1 := by
  obtain ⟨heffects, hidle⟩ := answer_until addr hx hm
  have hsplit : x.events = (.event (.appData [0x55, x.cmd.code, 0xAA] x.clock) ::
      (x.waiting ++ x.outcome.events)) ++ x.rest := rfl
  have hrx : ∀ ys, (final (mainStep addr) m ys).firmware.rx = final rxStep t.rx (uartIn ys) :=
    fun ys => by
    rw [(parsed_run addr m ys).2, hm.rx]
  have hrest : Undisturbed (final (mainStep addr) m
    (.event (.appData [0x55, x.cmd.code, 0xAA] x.clock) ::
      (x.waiting ++ x.outcome.events))).firmware.rx x.rest := (hrx _).symm ▸ hx.rest
  obtain ⟨hend, hquiet⟩ := link_rests addr hidle hrest
  refine ⟨?_, hrx x.events, ?_, timers_stay addr hm.phase x.events⟩
  · rw [hsplit, outs_commands_append, heffects, hquiet]
    exact List.append_nil _
  · rw [hsplit, final_append]
    exact hend

/-- An exchange has one answer. -/
theorem answers_exchange (hx : x.Ok t) : x.effects.countP IsNotify = 1 := by
  have hfits := hx.outcome
  unfold Exchange.effects
  cases hout : x.outcome with
  | refused => rfl
  | replied event clock b0 b1 =>
    rw [hout] at hfits
    obtain ⟨data, hdata⟩ := Option.isSome_iff_exists.mp hfits.2.1
    dsimp only
    rw [toldReply, hdata]
    rfl
  | silent now =>
    dsimp only [toldTimeout]
    split_ifs <;> rfl

theorem answers_run {xs : List Exchange} (hxs : EachStep talkStep (fun t x => x.Ok t) t xs) :
    (outs talkStep t xs).countP IsNotify = xs.length := by
  induction xs generalizing t with
  | nil => rfl
  | cons x xs ih =>
    rw [outs_cons, List.countP_append, ih hxs.2, List.length_cons, Nat.add_comm]
    exact congrArg _ (answers_exchange hxs.1)

end Talk

/-- A query, answered; an unlock command, refused; a lock command, answered in two pieces; a fault
query without an answer. -/
def sampleTalk : List Exchange :=
  [{ cmd := .queryUnlock
     clock := fun _ => 1000
     waiting := [.event (.timeoutTick 1200)]
     outcome := .replied (.timeout [0x69, 0x96]) (fun _ => 1300) 0x69 0x96
     rest := [.event (.timeoutTick 1400), .event (.handshakeTick 1500)] },
    { cmd := .unlock
      clock := fun _ => 1600
      waiting := []
      outcome := .refused
      rest := [.event (.appData [0x53, 0x35] fun _ => 1700)] },
    { cmd := .lock
      clock := fun _ => 2000
      waiting := [.event (.uart (.data [0x5A]) fun _ => 2010)]
      outcome := .replied (.timeout [0xA5]) (fun _ => 2020) 0x5A 0xA5
      rest := [] },
    { cmd := .faultQuery
      clock := fun _ => 3000
      waiting := [.event (.timeoutTick 4800), .event (.timeoutTick 5000)]
      outcome := .silent 5200
      rest := [] }]

/-- The firmware after the handshake, on a device without an upload. -/
def shaken : MainState :=
  final (mainStep []) (Main.boot fun _ => 0)
    [.event (.mainLoop 0), .wakeUp, .event (.handshakeTick 100),
      .event (.uart (.timeout [0x5A, 0xA5]) fun _ => 150)]

end BleHidUart.Firmware.Commands
