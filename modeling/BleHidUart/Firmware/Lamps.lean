import BleHidUart.Firmware.Main
import BleHidUart.Led

/-!
# The lamps of the running firmware

The handlers set LED states, the timer of the driver runs beside them. `panelStep` is both together;
`panel_shows`: from one LED effect of the firmware to the next, whatever else happens, the lamps
show the `display` of the state that was set.
-/

namespace BleHidUart.Firmware.Lamps

open BleHidUart.Board BleHidUart.Firmware.Main BleHidUart.Led BleHidUart.Lib.Run

/-- `main` and the LED driver. -/
structure Panel where
  main : MainState
  led : LedDriver

/-- An event of `main`, or the expiry of the LED timer. -/
inductive PanelEvent
  | main (y : MainEvent)
  | expire

section Step
variable (addr : List UInt8)

/-- What the driver gets: the calls of `set_led_state` in the handler, or the expiry. -/
def ledEvents (p : Panel) : PanelEvent → List LedEvent
  | .main y => (ledStates (mainStep addr p.main y).2).map .set
  | .expire => [.expire]

/-- Both together as a machine, with what the lamps show. -/
def panelStep (p : Panel) (x : PanelEvent) : Panel × List Shown :=
  ({ main := match x with
      | .main y => (mainStep addr p.main y).1
      | .expire => p.main
     led := final ledStep p.led (ledEvents addr p x) },
    outs ledStep p.led (ledEvents addr p x))

/-- After power-on. -/
def panelBoot (e : Eeprom) (red : UInt8) : Panel := { main := boot e, led := userLedInit red }

/-- What the driver gets in a run. -/
abbrev ledEventsIn (p : Panel) (xs : List PanelEvent) : List LedEvent :=
  seen (panelStep addr) (ledEvents addr) p xs

theorem panel_seen (p : Panel) (xs : List PanelEvent) :
    (final (panelStep addr) p xs).led = final ledStep p.led (ledEventsIn addr p xs) ∧
      outs (panelStep addr) p xs = outs ledStep p.led (ledEventsIn addr p xs) :=
  ⟨final_seen (fun _ _ => rfl) p xs, outs_seen (fun _ _ => rfl) (fun _ _ => rfl) p xs⟩

/-- No handler of the run sets an LED state. -/
def NoLed (p : Panel) (x : PanelEvent) : Prop :=
  ∀ y, x = .main y → ledStates (mainStep addr p.main y).2 = []

/-- The expiries in a run. -/
def expiries (xs : List PanelEvent) : ℕ :=
  (xs.filter fun | .expire => true | .main _ => false).length

theorem ledEventsIn_quiet {p : Panel} {xs : List PanelEvent}
    (h : EachStep (panelStep addr) (NoLed addr) p xs) :
    ledEventsIn addr p xs = List.replicate (expiries xs) .expire := by
  induction xs generalizing p with
  | nil => rfl
  | cons x xs ih =>
    cases x with
    | main y =>
      have hnone : ledEvents addr p (.main y) = [] := by rw [ledEvents, h.1 y rfl]; rfl
      rw [ledEventsIn, seen, hnone]
      exact ih h.2
    | expire =>
      rw [ledEventsIn, seen]
      exact congrArg (.expire :: ·) (ih h.2)

/-- **What the lamps show.** After any run `xs` from power-on and an event `y` whose handler sets
LED states, `s` the last of them, the expiries up to the next LED effect show the `display` of
`s`. -/
theorem panel_shows (e : Eeprom) (red : UInt8) (xs : List PanelEvent) (y : MainEvent)
    (ss : List LedState) (s : LedState) (zs : List PanelEvent)
    (hset : ledStates (mainStep addr (final (panelStep addr) (panelBoot e red) xs).main y).2 =
      ss ++ [s])
    (hquiet : EachStep (panelStep addr) (NoLed addr)
      (final (panelStep addr) (panelBoot e red) (xs ++ [.main y])) zs) :
    outs (panelStep addr) (panelBoot e red) (xs ++ .main y :: zs) =
      outs (panelStep addr) (panelBoot e red) xs ++ (List.range (expiries zs)).flatMap fun i =>
        (display s (30 - (final (panelStep addr) (panelBoot e red) xs).led.shineCounts.toNat)
          ((final (panelStep addr) (panelBoot e red) xs).led.red = 0) i).toList := by
  have hlt : (final (panelStep addr) (panelBoot e red) xs).led.shineCounts.toNat < 30 := by
    rw [(panel_seen addr _ xs).1]
    exact shineCounts_lt red _
  generalize hp : final (panelStep addr) (panelBoot e red) xs = p at hset hlt ⊢
  have hnext : final (panelStep addr) (panelBoot e red) (xs ++ [.main y]) =
      (panelStep addr p (.main y)).1 := by
    rw [final_append, hp]
    rfl
  rw [hnext] at hquiet
  have hsets := final_sets p.led ss s
  have hled : (panelStep addr p (.main y)).1.led = setLedState p.led s ∧
      (panelStep addr p (.main y)).2 = [] := by
    simp only [panelStep, ledEvents, hset]
    exact hsets
  rw [outs_append, outs_cons, hp, hled.2, (panel_seen addr _ zs).2, ledEventsIn_quiet addr hquiet,
    hled.1, List.nil_append, outs_expiries hlt]

end Step

/-- The handshake of the app, `53 35 01` with four zeros. -/
def appHandshake : MainEvent := .event (.appData [0x53, 0x35, 0x01, 0, 0, 0, 0, 0x01, 0] fun _ => 0)

theorem panel_shows_handshake :
    outs (panelStep []) (panelBoot (fun _ => 0) 1)
    ([] ++ .main appHandshake :: [.expire, .expire]) =
      outs (panelStep []) (panelBoot (fun _ => 0) 1) [] ++ (List.range 2).flatMap fun i =>
        (display .greenFastBlink 30 false i).toList :=
  panel_shows [] (fun _ => 0) 1 [] appHandshake [] .greenFastBlink [.expire, .expire]
    (by decide +kernel) ⟨nofun, nofun, trivial⟩

end BleHidUart.Firmware.Lamps
