import BleHidUart.Firmware.Traffic
import BleHidUart.Uart.V3Replies

/-!
# What the parser hands on in a run of `main`

The parser gets the writes of the app and what the receiver has put together from the UART. In a run
of `main` its calls are told from the writes and the UART events alone (`parsed_run`), whatever the
handlers do with them in between.
-/

namespace BleHidUart.Firmware.Parsed

open BleHidUart.Firmware.Calls BleHidUart.Firmware.Dispatch BleHidUart.Firmware.Machine
open BleHidUart.Firmware.Main BleHidUart.Firmware.Traffic BleHidUart.Lib.Run
open BleHidUart.Uart.Receiver BleHidUart.Uart.V3Replies BleHidUart.V3.Deframe BleHidUart.V3.Parser

/-- The UART events of a run. -/
def uartIn (ys : List MainEvent) : List UartEvent :=
  ys.filterMap fun
    | .event (.uart e _) => some e
    | _ => none

/-- What the parser hands on of a call of the receiver. -/
def mcuCalls : RxCall → List HandlerCall
  | .mcuData data => v3HandleMcuData data (UInt16.ofNat data.length)
  | _ => []

/-- What it hands on at an event, with the receiver in the state `u`. -/
def parsedOf (u : RxState) : MainEvent → List HandlerCall
  | .event (.appData data _) => v3HandleAppData data (UInt16.ofNat data.length)
  | .event (.uart e _) => (callsOf (rxStep u e).2).flatMap mcuCalls
  | _ => []

/-- What the parser hands on in a run. -/
def parsedIn : RxState → List MainEvent → List HandlerCall
  | _, [] => []
  | u, y :: ys => parsedOf u y ++ parsedIn (final rxStep u (uartIn [y])) ys

/-- The calls of the parser among the calls. -/
def handlerCalls (cs : List Call) : List HandlerCall :=
  cs.filterMap fun
    | .parsed k _ => some k
    | _ => none

/-- The strings for `Handle_protocol_data` among what the receiver does. -/
def strings (os : List RxOut) : List (List UInt8) :=
  os.filterMap fun
    | .call (.protocolData data) => some data
    | _ => none

/-- The strings for `Handle_protocol_data` among the calls. -/
def stringCalls (cs : List Call) : List (List UInt8) :=
  cs.filterMap fun
    | .protocolData data _ => some data
    | _ => none

theorem uartIn_append (ys zs : List MainEvent) : uartIn (ys ++ zs) = uartIn ys ++ uartIn zs :=
  List.filterMap_append

theorem handlerCalls_append (cs ds : List Call) :
    handlerCalls (cs ++ ds) = handlerCalls cs ++ handlerCalls ds := List.filterMap_append

theorem strings_append (os ps : List RxOut) : strings (os ++ ps) = strings os ++ strings ps :=
  List.filterMap_append

theorem stringCalls_append (cs ds : List Call) :
    stringCalls (cs ++ ds) = stringCalls cs ++ stringCalls ds :=
  List.filterMap_append

theorem handlerCalls_parsed (clock : ℕ → UInt32) (ks : List HandlerCall) :
    handlerCalls (parsedCalls clock ks) = ks := by
  unfold parsedCalls stamped
  induction ks generalizing clock with
  | nil => rfl
  | cons k ks ih =>
    rw [List.mapIdx_cons]
    exact congrArg (k :: ·) (ih fun i => clock (i + 1))

theorem handlerCalls_rx (clock : ℕ → UInt32) (cs : List RxCall) :
    handlerCalls (callsOfRxs clock cs) = cs.flatMap mcuCalls := by
  induction cs generalizing clock with
  | nil => rfl
  | cons c cs ih =>
    rw [callsOfRxs, handlerCalls_append, ih, List.flatMap_cons]
    congr 1
    cases c with
    | mcuData data => exact handlerCalls_parsed clock _
    | ctrlReply | protocolData | ucCmd => rfl

theorem stringCalls_parsed (clock : ℕ → UInt32) (ks : List HandlerCall) :
    stringCalls (parsedCalls clock ks) = [] := by
  refine List.filterMap_eq_nil_iff.mpr fun c hc => ?_
  obtain ⟨k, -, now, rfl⟩ := mem_parsedCalls hc
  rfl

theorem stringCalls_rx (clock : ℕ → UInt32) (os : List RxOut) :
    stringCalls (callsOfRxs clock (callsOf os)) = strings os := by
  induction os generalizing clock with
  | nil => rfl
  | cons o os ih =>
    cases o with
    | store i => exact ih clock
    | call c =>
      have hcalls : callsOf (.call c :: os) = c :: callsOf os := rfl
      rw [hcalls, callsOfRxs, stringCalls_append, ih]
      cases c with
      | mcuData data => exact congrArg (· ++ strings os) (stringCalls_parsed clock _)
      | ctrlReply | protocolData | ucCmd => rfl

section Run
variable (addr : List UInt8)

theorem rxCalls_rx (cs : List RxCall) (clock : ℕ → UInt32) (f : FirmwareState) :
    (rxCalls addr f clock cs).1.rx = f.rx := by
  induction cs generalizing clock f with
  | nil => rfl
  | cons c cs ih =>
    refine (ih _ _).trans ?_
    cases c <;> rfl

theorem parsed_event (f : FirmwareState) (x : FirmwareEvent) :
    handlerCalls (callsOfEvent f x) = parsedOf f.rx (.event x) ∧
      (firmwareStep addr f x).1.rx = final rxStep f.rx (uartIn [.event x]) := by
  cases x with
  | appData data clock => exact ⟨handlerCalls_parsed clock _, rfl⟩
  | uart event clock => exact ⟨handlerCalls_rx clock _, rxCalls_rx addr _ _ _⟩
  | handshakeTick now =>
    refine ⟨rfl, ?_⟩
    simp only [firmwareStep, handshakeTimerCb]
    split_ifs <;> rfl
  | timeoutTick | mainLoop => exact ⟨rfl, rfl⟩

variable (m : MainState)

/-- The calls of a run of `main`. -/
abbrev callsFrom (ys : List MainEvent) : List Call :=
  callsOfRun addr m.firmware (handledIn addr m ys)

theorem run_calls (ys : List MainEvent) :
    (final (mainStep addr) m ys).firmware =
        final (singleStep addr) m.firmware (callsFrom addr m ys) ∧
      outs (mainStep addr) m ys = outs (singleStep addr) m.firmware (callsFrom addr m ys) := by
  obtain ⟨hfinal, houts⟩ := main_seen addr m ys
  rw [final_calls, outs_calls]
  exact ⟨hfinal, houts⟩

theorem callsFrom_cons (y : MainEvent) (ys : List MainEvent) :
    callsFrom addr m (y :: ys) =
      callsOfRun addr m.firmware (handled m y) ++ callsFrom addr (mainStep addr m y).1 ys := by
  unfold callsFrom
  rw [(mainStep_handled addr m y).1]
  exact batches_append callsOfEvent (firmwareStep addr) m.firmware _ _

theorem calls_handled (x : FirmwareEvent) : callsOfRun addr m.firmware (handled m (.event x)) =
    if Handled m x then callsOfEvent m.firmware x else [] := by
  rw [handled]
  split_ifs
  · exact List.append_nil _
  · rfl

theorem parsed_step (y : MainEvent) :
    handlerCalls (callsOfRun addr m.firmware (handled m y)) = parsedOf m.firmware.rx y ∧
      (mainStep addr m y).1.firmware.rx = final rxStep m.firmware.rx (uartIn [y]) := by
  rw [(mainStep_handled addr m y).1]
  cases y with
  | wakeUp => exact ⟨rfl, rfl⟩
  | event x =>
    rw [calls_handled, handled]
    by_cases hx : Handled m x
    · rw [if_pos hx, if_pos hx]
      exact parsed_event addr m.firmware x
    · rw [if_neg hx, if_neg hx]
      cases x with
      | appData | uart => exact absurd trivial hx
      | handshakeTick | timeoutTick | mainLoop => exact ⟨rfl, rfl⟩

/-- **The calls of the parser in a run**, and the receiver after it. -/
theorem parsed_run (ys : List MainEvent) :
    handlerCalls (callsFrom addr m ys) = parsedIn m.firmware.rx ys ∧
      (final (mainStep addr) m ys).firmware.rx = final rxStep m.firmware.rx (uartIn ys) := by
  induction ys generalizing m with
  | nil => exact ⟨rfl, rfl⟩
  | cons y ys ih =>
    obtain ⟨hcalls, hrx⟩ := parsed_step addr m y
    obtain ⟨hrest, hfinal⟩ := ih (mainStep addr m y).1
    have hcons : uartIn (y :: ys) = uartIn [y] ++ uartIn ys := uartIn_append [y] ys
    rw [callsFrom_cons, handlerCalls_append, hcalls, hrest, hrx, final_cons, hfinal, hrx, hcons,
      final_append]
    exact ⟨rfl, rfl⟩

theorem strings_step (y : MainEvent) : stringCalls (callsOfRun addr m.firmware (handled m y)) =
    strings (outs rxStep m.firmware.rx (uartIn [y])) := by
  cases y with
  | wakeUp => rfl
  | event x =>
    rw [calls_handled]
    cases x with
    | appData data clock => exact stringCalls_parsed clock _
    | uart event clock =>
      have hone : outs rxStep m.firmware.rx (uartIn [.event (.uart event clock)]) =
          (rxStep m.firmware.rx event).2 := List.append_nil _
      rw [if_pos (show Handled m (.uart event clock) from trivial), hone]
      exact stringCalls_rx clock _
    | handshakeTick | timeoutTick | mainLoop => split_ifs <;> rfl

/-- **The strings for `Handle_protocol_data` in a run.** -/
theorem strings_run (ys : List MainEvent) :
    stringCalls (callsFrom addr m ys) = strings (outs rxStep m.firmware.rx (uartIn ys)) := by
  induction ys generalizing m with
  | nil => rfl
  | cons y ys ih =>
    have hcons : uartIn (y :: ys) = uartIn [y] ++ uartIn ys := uartIn_append [y] ys
    rw [callsFrom_cons, stringCalls_append, strings_step, ih, (parsed_step addr m y).2, hcons,
      outs_append, strings_append]

theorem mem_callsFrom {ys : List MainEvent} {c : Call} (h : c ∈ callsFrom addr m ys) :
    ∃ x, .event x ∈ ys ∧ CallOf x c := by
  induction ys generalizing m with
  | nil => cases h
  | cons y ys ih =>
    rw [callsFrom_cons] at h
    rcases List.mem_append.mp h with h | h
    · cases y with
      | wakeUp => cases h
      | event x =>
        rw [calls_handled] at h
        split_ifs at h
        · exact ⟨x, List.mem_cons_self, callOf_event m.firmware x c h⟩
        · cases h
    · obtain ⟨x, hx, hc⟩ := ih _ h
      exact ⟨x, List.mem_cons_of_mem _ hx, hc⟩

theorem tick_mem {ys : List MainEvent} {now : UInt32} (h : .timeoutTick now ∈ callsFrom addr m ys) :
    .event (.timeoutTick now) ∈ ys := by
  obtain ⟨x, hx, hc⟩ := mem_callsFrom addr m h
  have heq : x = .timeoutTick now := hc
  exact heq ▸ hx

end Run

/-! ### Writes of the app, strings of the controller -/

variable {u : RxState}

theorem mem_parsedIn {ys : List MainEvent} {k : HandlerCall} (h : k ∈ parsedIn u ys) :
    (∃ data clock, .event (.appData data clock) ∈ ys ∧
      k ∈ v3HandleAppData data (UInt16.ofNat data.length)) ∨
      ∃ data, .call (.mcuData data) ∈ outs rxStep u (uartIn ys) ∧
        k ∈ v3HandleMcuData data (UInt16.ofNat data.length) := by
  induction ys generalizing u with
  | nil => cases h
  | cons y ys ih =>
    have hcons : uartIn (y :: ys) = uartIn [y] ++ uartIn ys := uartIn_append [y] ys
    rw [hcons, outs_append]
    rcases List.mem_append.mp h with h | h
    · cases y with
      | wakeUp => cases h
      | event x =>
        cases x with
        | appData data clock => exact .inl ⟨data, clock, List.mem_cons_self, h⟩
        | uart event clock =>
          obtain ⟨c, hc, hk⟩ := List.mem_flatMap.mp h
          cases c with
          | mcuData data =>
            obtain ⟨o, ho, hsome⟩ := List.mem_filterMap.mp hc
            cases o with
            | store i => cases hsome
            | call c =>
              obtain rfl := Option.some.inj hsome
              exact .inr ⟨data, List.mem_append_left _ (List.mem_append_left _ ho), hk⟩
          | ctrlReply | protocolData | ucCmd => cases hk
        | handshakeTick | timeoutTick | mainLoop => cases h
    · rcases ih h with ⟨data, clock, hy, hk⟩ | ⟨data, ho, hk⟩
      · exact .inl ⟨data, clock, List.mem_cons_of_mem _ hy, hk⟩
      · exact .inr ⟨data, List.mem_append_right _ ho, hk⟩

theorem no_reply_app (data : List UInt8) :
    (v3HandleAppData data (UInt16.ofNat data.length)).filter IsMcuReply = [] := by
  refine List.filter_eq_nil_iff.mpr ?_
  unfold v3HandleAppData
  split_ifs
  · exact fun k hk => absurd hk List.not_mem_nil
  refine forall_v3ParseLoop (fun _ _ => nofun) (fun offset n k _ _ _ hk => ?_) _ _
  unfold v3Dispatch at hk
  simp only [if_true] at hk
  split_ifs at hk
  all_goals
  · obtain rfl := Option.some.inj hk
    exact Bool.false_ne_true

theorem filter_mcuCalls (os : List RxOut) :
    ((callsOf os).flatMap mcuCalls).filter IsMcuReply = os.flatMap mcuReplies := by
  induction os with
  | nil => rfl
  | cons o os ih =>
    rw [List.flatMap_cons, ← ih]
    cases o with
    | store i => rfl
    | call c =>
      have hcalls : callsOf (.call c :: os) = c :: callsOf os := rfl
      rw [hcalls, List.flatMap_cons, List.filter_append]
      cases c <;> rfl

theorem filter_parsedIn (ys : List MainEvent) :
    (parsedIn u ys).filter IsMcuReply = (outs rxStep u (uartIn ys)).flatMap mcuReplies := by
  induction ys generalizing u with
  | nil => rfl
  | cons y ys ih =>
    have hcons : uartIn (y :: ys) = uartIn [y] ++ uartIn ys := uartIn_append [y] ys
    rw [parsedIn, List.filter_append, ih, hcons, outs_append, List.flatMap_append]
    congr 1
    cases y with
    | wakeUp => rfl
    | event x =>
      cases x with
      | appData data clock => exact no_reply_app data
      | uart event clock =>
        have hone : outs rxStep u (uartIn [.event (.uart event clock)]) = (rxStep u event).2 :=
          List.append_nil _
        rw [hone]
        exact filter_mcuCalls _
      | handshakeTick | timeoutTick | mainLoop => rfl

end BleHidUart.Firmware.Parsed
