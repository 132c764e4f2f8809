import BleHidUart.Firmware.Machine

/-!
# The firmware, one call at a time

A step of the firmware is a run of calls: what the parser calls for a write of the app or for a
string of the controller, what the receiver calls, a round of a timer or of the main loop. Each of
them reads the uptime at most once. `singleStep` makes one call, `firmwareStep_eq` takes a step
apart, and `final_calls` and `outs_calls` a whole run: what is proved of every run of calls holds of
the firmware.
-/

namespace BleHidUart.Firmware.Calls

open BleHidUart.Board BleHidUart.Firmware.Dispatch BleHidUart.Firmware.Machine BleHidUart.Lib.Run
open BleHidUart.Uart.Receiver BleHidUart.V3.Parser

/-- A call, with the uptime it reads. -/
inductive Call
  | parsed (k : HandlerCall) (now : UInt32)
  | ctrlReply (cmd : UInt8) (now : UInt32)
  | protocolData (data : List UInt8) (now : UInt32)
  | ucCmd (data : List UInt8)
  | receiver (event : UartEvent)
  | handshakeTick (now : UInt32)
  | timeoutTick (now : UInt32)
  | mainLoop (now : UInt32)

variable (addr : List UInt8)

/-- One call. -/
def singleStep (f : FirmwareState) : Call → FirmwareState × List Effect
  | .parsed k now =>
    let r := callHandler f.bridge k now
    ({ f with bridge := r.1 }, r.2)
  | .ctrlReply cmd now => rxCall addr f (fun _ => now) (.ctrlReply cmd)
  | .protocolData data now => rxCall addr f (fun _ => now) (.protocolData data)
  | .ucCmd data => rxCall addr f (fun _ => 0) (.ucCmd data)
  | .receiver event => ({ f with rx := (rxStep f.rx event).1 }, [])
  | .handshakeTick now => firmwareStep addr f (.handshakeTick now)
  | .timeoutTick now => firmwareStep addr f (.timeoutTick now)
  | .mainLoop now => firmwareStep addr f (.mainLoop now)

/-! ### The calls of a step -/

/-- The calls of the parser. -/
def parsedCalls (clock : ℕ → UInt32) (ks : List HandlerCall) : List Call :=
  (stamped clock ks).map fun c => .parsed c.1 c.2

/-- A call of the receiver; a string of the controller goes to the parser. -/
def callsOfRx (clock : ℕ → UInt32) : RxCall → List Call
  | .ctrlReply cmd => [.ctrlReply cmd (clock 0)]
  | .mcuData data => parsedCalls clock (v3HandleMcuData data (UInt16.ofNat data.length))
  | .protocolData data => [.protocolData data (clock 0)]
  | .ucCmd data => [.ucCmd data]

def callsOfRxs (clock : ℕ → UInt32) : List RxCall → List Call
  | [] => []
  | c :: cs => callsOfRx clock c ++ callsOfRxs (fun i => clock (i + 1)) cs

/-- The calls of a step of the firmware. -/
def callsOfEvent (f : FirmwareState) : FirmwareEvent → List Call
  | .appData data clock => parsedCalls clock (v3HandleAppData data (UInt16.ofNat data.length))
  | .uart event clock => .receiver event :: callsOfRxs clock (callsOf (rxStep f.rx event).2)
  | .handshakeTick now => [.handshakeTick now]
  | .timeoutTick now => [.timeoutTick now]
  | .mainLoop now => [.mainLoop now]

theorem run_parsed (f : FirmwareState) (cs : List (HandlerCall × UInt32)) :
    final (singleStep addr) f (cs.map fun c => .parsed c.1 c.2) =
        { f with bridge := final callStep f.bridge cs } ∧
      outs (singleStep addr) f (cs.map fun c => .parsed c.1 c.2) = outs callStep f.bridge cs := by
  induction cs generalizing f with
  | nil => exact ⟨rfl, rfl⟩
  | cons c cs ih =>
    obtain ⟨hfinal, houts⟩ := ih { f with bridge := (callStep f.bridge c).1 }
    exact ⟨hfinal, congrArg ((callStep f.bridge c).2 ++ ·) houts⟩

theorem run_parsedCalls (f : FirmwareState) (clock : ℕ → UInt32) (ks : List HandlerCall) :
    ({ f with bridge := (runCalls f.bridge clock ks).1 }, (runCalls f.bridge clock ks).2) =
      (final (singleStep addr) f (parsedCalls clock ks),
        outs (singleStep addr) f (parsedCalls clock ks)) := by
  obtain ⟨hfinal, houts⟩ := run_parsed addr f (stamped clock ks)
  exact (Prod.ext hfinal houts).symm

theorem rxCall_eq (f : FirmwareState) (clock : ℕ → UInt32) (c : RxCall) :
    rxCall addr f clock c = (final (singleStep addr) f (callsOfRx clock c),
      outs (singleStep addr) f (callsOfRx clock c)) := by
  cases c with
  | mcuData data => exact run_parsedCalls addr f clock _
  | ctrlReply | protocolData | ucCmd =>
    exact Prod.ext rfl (List.append_nil _).symm

theorem rxCalls_eq (f : FirmwareState) (clock : ℕ → UInt32) (cs : List RxCall) :
    rxCalls addr f clock cs = (final (singleStep addr) f (callsOfRxs clock cs),
      outs (singleStep addr) f (callsOfRxs clock cs)) := by
  induction cs generalizing f clock with
  | nil => rfl
  | cons c cs ih =>
    simp only [rxCalls, callsOfRxs]
    rw [final_append, outs_append, ih, rxCall_eq]

/-- **A step of the firmware is the run of its calls.** -/
theorem firmwareStep_eq (f : FirmwareState) (x : FirmwareEvent) :
    firmwareStep addr f x = (final (singleStep addr) f (callsOfEvent f x),
      outs (singleStep addr) f (callsOfEvent f x)) := by
  cases x with
  | appData data clock => exact run_parsedCalls addr f clock _
  | uart event clock => exact rxCalls_eq addr { f with rx := (rxStep f.rx event).1 } clock _
  | handshakeTick | timeoutTick | mainLoop => exact Prod.ext rfl (List.append_nil _).symm

/-! ### What the parser calls -/

theorem mem_parsedCalls {clock : ℕ → UInt32} {ks : List HandlerCall} {c : Call}
    (h : c ∈ parsedCalls clock ks) : ∃ k ∈ ks, ∃ now, c = .parsed k now := by
  obtain ⟨⟨k, now⟩, hk, rfl⟩ := List.mem_map.mp h
  obtain ⟨i, hi, heq⟩ := List.mem_mapIdx.mp hk
  obtain ⟨rfl, -⟩ := Prod.mk.inj heq
  exact ⟨_, List.getElem_mem hi, now, rfl⟩

section Parsed
variable {Q : HandlerCall → Prop}
  (hQ : ∀ data fromApp, ∀ k ∈ v3ParseBuffer data (UInt16.ofNat data.length) fromApp, Q k)
include hQ

theorem forall_parsed_app (data : List UInt8) :
    ∀ k ∈ v3HandleAppData data (UInt16.ofNat data.length), Q k := by
  unfold v3HandleAppData
  split_ifs
  · exact fun k hk => absurd hk List.not_mem_nil
  · exact hQ data true

theorem forall_parsed_mcu (data : List UInt8) :
    ∀ k ∈ v3HandleMcuData data (UInt16.ofNat data.length), Q k := by
  unfold v3HandleMcuData
  split_ifs
  · exact fun k hk => absurd hk List.not_mem_nil
  · exact hQ data false

theorem forall_parsed_rx (cs : List RxCall) (clock : ℕ → UInt32) :
    ∀ k now, .parsed k now ∈ callsOfRxs clock cs → Q k := by
  induction cs generalizing clock with
  | nil => exact fun k now hk => absurd hk List.not_mem_nil
  | cons c cs ih =>
    intro k now hk
    rcases List.mem_append.mp hk with hk | hk
    · cases c with
      | mcuData data =>
        obtain ⟨k', hk', t, heq⟩ := mem_parsedCalls hk
        cases heq
        exact forall_parsed_mcu hQ data k hk'
      | ctrlReply | protocolData | ucCmd => cases List.mem_singleton.mp hk
    · exact ih _ k now hk

/-- What holds of all that the parser calls for a buffer holds of all that it calls in a step. -/
theorem forall_parsed (f : FirmwareState) (x : FirmwareEvent) :
    ∀ k now, .parsed k now ∈ callsOfEvent f x → Q k := by
  intro k now hk
  cases x with
  | appData data clock =>
    obtain ⟨k', hk', t, heq⟩ := mem_parsedCalls hk
    cases heq
    exact forall_parsed_app hQ data k hk'
  | uart event clock =>
    rcases List.mem_cons.mp hk with heq | hk
    · cases heq
    · exact forall_parsed_rx hQ _ clock k now hk
  | handshakeTick | timeoutTick | mainLoop => cases List.mem_singleton.mp hk

end Parsed

/-- The calls of a run of the firmware. -/
abbrev callsOfRun (f : FirmwareState) (xs : List FirmwareEvent) : List Call :=
  batches callsOfEvent (firmwareStep addr) f xs

theorem final_calls (f : FirmwareState) (xs : List FirmwareEvent) :
    final (singleStep addr) f (callsOfRun addr f xs) = final (firmwareStep addr) f xs :=
  final_batches (firmwareStep_eq addr) f xs

theorem outs_calls (f : FirmwareState) (xs : List FirmwareEvent) :
    outs (singleStep addr) f (callsOfRun addr f xs) = outs (firmwareStep addr) f xs :=
  outs_batches (firmwareStep_eq addr) f xs

theorem forall_parsed_run {Q : HandlerCall → Prop}
    (hQ : ∀ data fromApp, ∀ k ∈ v3ParseBuffer data (UInt16.ofNat data.length) fromApp, Q k)
    (f : FirmwareState) (xs : List FirmwareEvent) :
    ∀ k now, .parsed k now ∈ callsOfRun addr f xs → Q k := by
  induction xs generalizing f with
  | nil => exact fun k now hk => absurd hk List.not_mem_nil
  | cons x xs ih =>
    intro k now hk
    rcases List.mem_append.mp hk with hk | hk
    · exact forall_parsed hQ f x k now hk
    · exact ih _ k now hk

end BleHidUart.Firmware.Calls
