import BleHidUart.Uart.Receiver
import BleHidUart.V2.Bridge
import BleHidUart.V3.McuData

/-!
# The bridge behind the parser

A buffer of the app or of the controller is parsed, and the handlers are called in order on the
state of the bridge: the OTA context, the pending requests and the EEPROM. A handler reads the
uptime when it is called: `clock i` for the call number `i`.

`mcu_data_harmless_iff`: a string that the UART delivers acts as nothing but a reply exactly when it
is not an error frame that hides a frame of the app.
-/

namespace BleHidUart.Firmware.Dispatch

open BleHidUart.Board BleHidUart.Lib.Memory BleHidUart.Lib.Run BleHidUart.Ota.Handlers
open BleHidUart.Uart.Receiver BleHidUart.V2.Bridge BleHidUart.V3.Bridge BleHidUart.V3.Deframe
open BleHidUart.V3.Handlers BleHidUart.V3.McuData BleHidUart.V3.Parser

/-- The state the handlers of the parser work on. -/
structure Bridge where
  ota : OtaContext := otaInit
  ble : BleState := {}
  ee : Eeprom

/-- The bridge after an OTA handler. -/
def Bridge.setOta (b : Bridge) (r : OtaContext × List Effect) : Bridge × List Effect :=
  ({ b with ota := r.1, ee := applyEffects b.ee r.2 }, r.2)

/-- The bridge after a V3 handler. -/
def Bridge.setV3 (b : Bridge) (r : V3BridgeState × List Effect) : Bridge × List Effect :=
  ({ b with ble := { b.ble with v3 := r.1 } }, r.2)

/-- A call of the parser. -/
def callHandler (b : Bridge) (k : HandlerCall) (now : UInt32) : Bridge × List Effect :=
  match k with
  | .appCmd appCmd frame =>
    let r := handleAppCmdAndReply b.ble appCmd frame now
    ({ b with ble := r.1 }, r.2)
  | .handshake frame => (b, v3HandleHandshake b.ee frame)
  | .readWrite frame cmd => b.setV3 (v3HandleReadWrite b.ble.v3 frame cmd now)
  | .mcuReply frame cmd => b.setV3 (v3HandleMcuReply b.ble.v3 frame cmd)
  | .otaStart frame => b.setOta (otaHandleStartRequest b.ota frame)
  | .otaData frame frameLen => b.setOta (otaHandleDataPacket b.ota frame frameLen)
  | .packageRetry frame => b.setOta (otaPackageRetry b.ota frame)
  | .eraseRetry frame => b.setOta (otaEraseRetry b.ota frame)

/-- A call with the uptime it reads. -/
def callStep (b : Bridge) (c : HandlerCall × UInt32) : Bridge × List Effect := callHandler b c.1 c.2

/-- The calls with their uptimes. -/
def stamped (clock : ℕ → UInt32) (calls : List HandlerCall) : List (HandlerCall × UInt32) :=
  calls.mapIdx fun i k => (k, clock i)

/-- The calls for a buffer, one after another. -/
def runCalls (b : Bridge) (clock : ℕ → UInt32) (calls : List HandlerCall) : Bridge × List Effect :=
  (final callStep b (stamped clock calls), outs callStep b (stamped clock calls))

@[simp] theorem runCalls_nil (b : Bridge) (clock : ℕ → UInt32) : runCalls b clock [] = (b, []) :=
  rfl

theorem runCalls_cons (b : Bridge) (clock : ℕ → UInt32) (k : HandlerCall) (ks : List HandlerCall) :
    runCalls b clock (k :: ks) =
      ((runCalls (callHandler b k (clock 0)).1 (fun i => clock (i + 1)) ks).1,
        (callHandler b k (clock 0)).2 ++
          (runCalls (callHandler b k (clock 0)).1 (fun i => clock (i + 1)) ks).2) := by
  unfold runCalls stamped
  rw [List.mapIdx_cons]
  rfl

theorem runCalls_singleton (b : Bridge) (clock : ℕ → UInt32) (k : HandlerCall) :
    runCalls b clock [k] = callHandler b k (clock 0) := by
  rw [runCalls_cons, runCalls_nil, List.append_nil]

/-! ### Bytes of the controller -/

theorem delivered_of_tail {v : RxState} {data : List UInt8}
    (h : .mcuData data ∈ (timeoutTail v).2) : ∃ f : McuFrame, f.bytes = data := by
  obtain ⟨hv, hc, rfl⟩ := mcuData_of_tail h
  have hsize : ∀ cmd, 0 < v3FrameSizeFromCmd cmd → 7 ≤ v3FrameSizeFromCmd cmd := by
    intro cmd hpos
    unfold v3FrameSizeFromCmd at hpos ⊢
    split_ifs at hpos ⊢
    all_goals first | decide | exact absurd hpos (Nat.lt_irrefl 0)
  obtain ⟨n, hn⟩ := Nat.exists_eq_add_of_le (hsize _ hc.2.1)
  refine ⟨⟨slice v.rxSendata 0 (v3FrameSizeFromCmd (v.rxSendata 2)), v.rxSendata 2, ?_, hc.2.1,
    length_slice _ _ _⟩, rfl⟩
  rw [hn, slice_add, ← hv.2.1, ← hv.2.2]
  rfl

/-- **What the UART delivers** has the head and the length of a V3 frame. -/
theorem delivered {u : RxState} {events : List UartEvent} {data : List UInt8}
    (h : .call (.mcuData data) ∈ outs rxStep u events) : ∃ f : McuFrame, f.bytes = data := by
  have hstep : ∀ (u : RxState) (e : UartEvent), True → True := fun _ _ _ => trivial
  have hout : ∀ (u : RxState) (e : UartEvent), True → ∀ o ∈ (rxStep u e).2,
      ∀ data, o = .call (.mcuData data) → ∃ f : McuFrame, f.bytes = data := by
    rintro u e - o ho data rfl
    obtain ⟨v, hv⟩ := exists_tail ho
    exact delivered_of_tail hv
  exact forall_outs hstep hout trivial events _ h data rfl

/-- What the bridge does with a string of the controller. -/
def handleMcuData (b : Bridge) (clock : ℕ → UInt32) (data : List UInt8) : Bridge × List Effect :=
  runCalls b clock (v3HandleMcuData data (UInt16.ofNat data.length))

/-- The string acts as nothing but a reply: no command of the app is executed, and the app gets at
most a reply with its CRC or an error frame. -/
structure Harmless (b : Bridge) (clock : ℕ → UInt32) (data : List UInt8) : Prop where
  noAppCmd : ∀ appCmd frame,
    .appCmd appCmd frame ∉ v3HandleMcuData data (UInt16.ofNat data.length)
  noCommand : ∀ bytes, .uart bytes ∉ (handleMcuData b clock data).2
  ota : (handleMcuData b clock data).1.ota = b.ota
  ee : (handleMcuData b clock data).1.ee = b.ee
  ble : (handleMcuData b clock data).1.ble = b.ble ∨ (handleMcuData b clock data).1.ble =
    { b.ble with v3 := { b.ble.v3 with waitingMcuReply := false } }
  effects : (handleMcuData b clock data).2 = [] ∨
    (∃ f : NormalFrame, v3CrcVerify f.bytes v3CrcCountNormal v3CrcOffsetNormal ∧
      (handleMcuData b clock data).2 = [.notify f.bytes v3FrameSizeNormal]) ∨
    ∃ errorCmd grp sta, (handleMcuData b clock data).2 =
      [.notify (v3BuildErrorReply errorCmd grp sta) v3FrameSizeError]

theorem harmless_of_run {b : Bridge} {clock : ℕ → UInt32} {data : List UInt8}
    {r : Bridge × List Effect} (hrun : handleMcuData b clock data = r)
    (happ : ∀ appCmd frame, .appCmd appCmd frame ∉ v3HandleMcuData data (UInt16.ofNat data.length))
    (huart : ∀ bytes, .uart bytes ∉ r.2) (hota : r.1.ota = b.ota) (hee : r.1.ee = b.ee)
    (hble : r.1.ble = b.ble ∨ r.1.ble =
      { b.ble with v3 := { b.ble.v3 with waitingMcuReply := false } })
    (hfx : r.2 = [] ∨ (∃ f : NormalFrame, v3CrcVerify f.bytes v3CrcCountNormal v3CrcOffsetNormal ∧
      r.2 = [.notify f.bytes v3FrameSizeNormal]) ∨
      ∃ errorCmd grp sta, r.2 = [.notify (v3BuildErrorReply errorCmd grp sta) v3FrameSizeError]) :
    Harmless b clock data := by
  subst hrun
  exact ⟨happ, huart, hota, hee, hble, hfx⟩

theorem uart_notMem_notify {data bytes : List UInt8} {len : ℕ} :
    Effect.uart bytes ∉ [Effect.notify data len] := fun h => by
  cases List.mem_singleton.mp h

theorem harmless_reply {b : Bridge} {clock : ℕ → UInt32} {data : List UInt8} (g : NormalFrame)
    (h : v3HandleMcuData data (UInt16.ofNat data.length) = [.mcuReply g.bytes g.cmd]) :
    Harmless b clock data := by
  have hrun : handleMcuData b clock data = b.setV3 (v3HandleMcuReply b.ble.v3 g.bytes g.cmd) := by
    unfold handleMcuData
    rw [h, runCalls_singleton]
    rfl
  have hno : ∀ appCmd frame,
      .appCmd appCmd frame ∉ v3HandleMcuData data (UInt16.ofNat data.length) := by
    intro appCmd frame hmem
    rw [h] at hmem
    cases List.mem_singleton.mp hmem
  unfold v3HandleMcuReply at hrun
  by_cases hcrc : v3CrcVerify g.bytes v3CrcCountNormal v3CrcOffsetNormal
  · rw [if_neg (not_not.mpr hcrc), g.take_size] at hrun
    exact harmless_of_run hrun hno (fun _ => uart_notMem_notify) rfl rfl (.inr rfl)
      (.inr (.inl ⟨g, hcrc, rfl⟩))
  · rw [if_pos hcrc] at hrun
    exact harmless_of_run hrun hno (fun _ => uart_notMem_notify) rfl rfl (.inl rfl)
      (.inr (.inr ⟨_, _, _, rfl⟩))

/-- **Bytes of the controller never act as a command of the app**, unless they are an error frame
that hides one. -/
theorem mcu_data_harmless_iff {u : RxState} {events : List UartEvent} {data : List UInt8}
    (h : .call (.mcuData data) ∈ outs rxStep u events) (b : Bridge) (clock : ℕ → UInt32) :
    Harmless b clock data ↔ ¬ HidesAppFrame data := by
  obtain ⟨f, rfl⟩ := delivered h
  constructor
  · intro hharm hhides
    obtain ⟨cmd, frame, -, hcalls⟩ := calls_of_hides hhides
    exact hharm.noAppCmd cmd frame (by rw [hcalls]; exact List.mem_singleton_self _)
  · intro hno
    rcases calls_of_not_hides hno with hcalls | ⟨g, -, hcalls⟩
    · have hrun : handleMcuData b clock f.bytes = (b, []) := by
        unfold handleMcuData
        rw [hcalls, runCalls_nil]
      have happ : ∀ cmd frame,
          .appCmd cmd frame ∉ v3HandleMcuData f.bytes (UInt16.ofNat f.bytes.length) := by
        rw [hcalls]
        exact fun _ _ => List.not_mem_nil
      exact harmless_of_run hrun happ (fun _ => List.not_mem_nil) rfl rfl (.inl rfl) (.inl rfl)
    · exact harmless_reply g hcalls

/-- A handshake that comes from the controller, with an unlock command in its payload. -/
theorem mcu_data_harmless_handshake :
    Harmless { ee := fun _ => 0 } (fun _ => 0) [0x53, 0x35, 0x01, 0x55, 0x03, 0xAA, 0, 0, 0] := by
  have hmem : .call (.mcuData [0x53, 0x35, 0x01, 0x55, 0x03, 0xAA, 0, 0, 0]) ∈
      outs rxStep {} [.timeout [0x53, 0x35, 0x01, 0x55, 0x03, 0xAA, 0, 0, 0]] := by decide +kernel
  exact (mcu_data_harmless_iff hmem _ _).mpr (by decide)

/-- **An error frame of the controller that unlocks.** -/
theorem not_mcu_data_harmless : ¬ ∀ (events : List UartEvent) (data : List UInt8) (b : Bridge)
    (clock : ℕ → UInt32), .call (.mcuData data) ∈ outs rxStep {} events →
      Harmless b clock data := by
  intro hall
  have h := hall [.timeout [0x53, 0x35, 0x10, 0x55, 0x03, 0xAA, 0x00]]
    [0x53, 0x35, 0x10, 0x55, 0x03, 0xAA, 0x00]
    { ee := fun _ => 0, ble := { controler := { handshakeOk := true } } } (fun _ => 0)
      (by decide +kernel)
  exact h.noCommand unlockCmd (by decide +kernel)

end BleHidUart.Firmware.Dispatch
