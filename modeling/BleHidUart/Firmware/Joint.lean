import BleHidUart.CtrlOta.Transfer
import BleHidUart.Ota.Session

/-!
# The device: both sides and the EEPROM they share

Frames of the app, rounds of the main loop and replies of the controller arrive in any order.
The app side writes the image area and the metadata page, the controller side reads both; neither
looks at the context of the other. `powerStep` adds power cuts: the effects of a handler stop right
before a page write, and the device boots again from what the EEPROM holds.
-/

namespace BleHidUart.Firmware.Joint

open BleHidUart.Board BleHidUart.CtrlOta.Machine BleHidUart.CtrlOta.Moves
open BleHidUart.CtrlOta.Transfer BleHidUart.Lib.Run BleHidUart.Ota.Handlers BleHidUart.Ota.Session

/-- The contexts of the two sides and the EEPROM. -/
structure Device where
  ota : OtaContext
  ctrl : CtrlOtaCtx
  ee : Eeprom

/-- `main`: `Ota_init` and `Ctrl_ota_init`. -/
def boot (e : Eeprom) : Device := ⟨otaInit, ctrlOtaInit e, e⟩

/-- What the firmware handles: a frame of the app, or an event of the controller side. -/
inductive Stimulus
  | app (f : AppFrame)
  | ctrl (i : CtrlEvent)

/-- The effects of a handler. -/
def effects (d : Device) : Stimulus → List Effect
  | .app f => (otaHandle d.ota f).2
  | .ctrl i => (ctrlHandle d.ctrl d.ee i).2

/-- The device after a handler. -/
def handle (d : Device) : Stimulus → Device
  | .app f => { d with ota := (otaHandle d.ota f).1, ee := applyEffects d.ee (otaHandle d.ota f).2 }
  | .ctrl i =>
    { d with
      ctrl := (ctrlHandle d.ctrl d.ee i).1
      ee := applyEffects d.ee (ctrlHandle d.ctrl d.ee i).2 }

/-- The device as a machine. -/
def deviceStep (d : Device) (x : Stimulus) : Device × List Effect := (handle d x, effects d x)

/-! ### One of the two sides -/

/-- The events of the upload. -/
def ctrlOf : Stimulus → Option CtrlEvent
  | .ctrl i => some i
  | .app _ => none

/-- The frames of the download. -/
def appOf : Stimulus → Option AppFrame
  | .app f => some f
  | .ctrl _ => none

/-- There is no frame of the download. -/
def NoFrame (xs : List Stimulus) : Prop := ∀ x ∈ xs, ∃ i, x = .ctrl i

/-- The controller reports no success; that is all of the upload that writes the EEPROM. -/
def NoSuccess (xs : List Stimulus) : Prop := ∀ i, .ctrl i ∈ xs → ¬ IsReply ctrlCmdCrcSuccess i

/-- No reply of the controller comes. -/
def Unanswered (xs : List Stimulus) : Prop := ∀ cmd now, .ctrl (.reply cmd now) ∉ xs

theorem map_ctrlOf {xs : List Stimulus} (h : NoFrame xs) :
    (xs.filterMap ctrlOf).map .ctrl = xs := by
  induction xs with
  | nil => rfl
  | cons x xs ih =>
    obtain ⟨⟨i, rfl⟩, hxs⟩ := List.forall_mem_cons.mp h
    exact congrArg (.ctrl i :: ·) (ih hxs)

theorem noFrame_map (is : List CtrlEvent) : NoFrame (is.map .ctrl) := by
  intro x hx
  obtain ⟨i, -, rfl⟩ := List.mem_map.mp hx
  exact ⟨i, rfl⟩

theorem noSuccess_app (fs : List AppFrame) : NoSuccess (fs.map .app) := by
  intro i hi
  obtain ⟨f, -, heq⟩ := List.mem_map.mp hi
  cases heq

/-- Without frames of the app the device is the upload alone. -/
theorem device_ctrl (d : Device) (is : List CtrlEvent) :
    ((final deviceStep d (is.map .ctrl)).ctrl, (final deviceStep d (is.map .ctrl)).ee) =
        final ctrlStep (d.ctrl, d.ee) is ∧
      outs deviceStep d (is.map .ctrl) = outs ctrlStep (d.ctrl, d.ee) is := by
  have hstep : ∀ (s : CtrlOtaCtx × Eeprom) (d : Device) (i : CtrlEvent), (d.ctrl, d.ee) = s →
      ((deviceStep d (.ctrl i)).1.ctrl, (deviceStep d (.ctrl i)).1.ee) = (ctrlStep s i).1 := by
    rintro s d i rfl
    rfl
  refine ⟨final_related hstep rfl is, ?_⟩
  have houts := outs_related (Q := Eq) hstep (fun s d i h => ?_)
    (rfl : (d.ctrl, d.ee) = (d.ctrl, d.ee)) is
  · exact (List.forall₂_eq_eq_eq ▸ houts : outs ctrlStep (d.ctrl, d.ee) is = _).symm
  · subst h
    exact List.forall₂_same.mpr fun _ _ => rfl

theorem ee_ctrl (d : Device) {i : CtrlEvent} (hi : ¬ IsReply ctrlCmdCrcSuccess i) :
    (deviceStep d (.ctrl i)).1.ee = d.ee :=
  (applyEffects_move (ctrlHandle_move d.ctrl d.ee i)).trans (if_neg hi)

/-- **The download does not notice the upload.** -/
theorem device_app (d : Device) {xs : List Stimulus} (h : NoSuccess xs) :
    ((final deviceStep d xs).ota, (final deviceStep d xs).ee) =
      final otaStep (d.ota, d.ee) (xs.filterMap appOf) := by
  induction xs generalizing d with
  | nil => rfl
  | cons x xs ih =>
    rw [final_cons, ih (deviceStep d x).1 fun i hi => h i (List.mem_cons_of_mem x hi)]
    cases x with
    | app f => rfl
    | ctrl i =>
      rw [ee_ctrl d (h i List.mem_cons_self)]
      rfl

/-! ### Power cuts -/

/-- The effects up to the page write number `k`, which does not happen any more. -/
def upToWrite : List Effect → ℕ → List Effect
  | [], _ => []
  | .i2c _ :: _, 0 => []
  | .i2c w :: fx, k + 1 => .i2c w :: upToWrite fx k
  | .uart d :: fx, k => .uart d :: upToWrite fx k
  | .notify d n :: fx, k => .notify d n :: upToWrite fx k
  | .led s :: fx, k => .led s :: upToWrite fx k

/-- A handler runs to its end, or the power is cut in it and the device boots again. -/
inductive PowerEvent
  | run (x : Stimulus)
  | cut (x : Stimulus) (k : ℕ)

/-- The effects of a handler, as far as it came. -/
def powerEffects (d : Device) : PowerEvent → List Effect
  | .run x => effects d x
  | .cut x k => upToWrite (effects d x) k

/-- The device with power cuts. -/
def powerStep (d : Device) (p : PowerEvent) : Device × List Effect :=
  match p with
  | .run x => (handle d x, powerEffects d p)
  | .cut _ _ => (boot (applyEffects d.ee (powerEffects d p)), powerEffects d p)

theorem i2cWrites_upToWrite :
    ∀ (fx : List Effect) (k : ℕ), i2cWrites (upToWrite fx k) = (i2cWrites fx).take k
  | [], k => by simp [upToWrite]
  | .i2c w :: fx, 0 => by simp [upToWrite]
  | .i2c w :: fx, k + 1 => by simp [upToWrite, i2cWrites_upToWrite fx k]
  | .uart d :: fx, k => by simp [upToWrite, i2cWrites_upToWrite fx k]
  | .notify d n :: fx, k => by simp [upToWrite, i2cWrites_upToWrite fx k]
  | .led s :: fx, k => by simp [upToWrite, i2cWrites_upToWrite fx k]

theorem upToWrite_initial : ∀ (fx : List Effect) (k : ℕ), upToWrite fx k <+: fx
  | [], _ => List.prefix_rfl
  | .i2c _ :: _, 0 => List.nil_prefix
  | .i2c _ :: fx, k + 1 => List.cons_prefix_cons.mpr ⟨rfl, upToWrite_initial fx k⟩
  | .uart _ :: fx, k => List.cons_prefix_cons.mpr ⟨rfl, upToWrite_initial fx k⟩
  | .notify _ _ :: fx, k => List.cons_prefix_cons.mpr ⟨rfl, upToWrite_initial fx k⟩
  | .led _ :: fx, k => List.cons_prefix_cons.mpr ⟨rfl, upToWrite_initial fx k⟩

/-! ### The joint invariant -/

/-- The invariants of both sides. -/
structure DeviceInv (d : Device) : Prop where
  ota : OtaInv d.ota d.ee
  ctrl : CtrlInv d.ctrl

theorem deviceInv_boot (e : Eeprom) : DeviceInv (boot e) := ⟨otaInv_init e, ctrlInv_init e⟩

theorem otaInv_ctrl {c : OtaContext} {e : Eeprom} (h : OtaInv c e) {g g' : CtrlOtaCtx}
    {i : CtrlEvent} {fx : List Effect} (hm : CtrlMove g e i g' fx) :
    OtaInv c (applyEffects e fx) := by
  rw [applyEffects_move hm]
  split_ifs
  · exact h.clearFlag
  · exact h

/-- **Every handler keeps the invariants of both sides.** -/
theorem deviceInv_handle {d : Device} (h : DeviceInv d) : ∀ x : Stimulus, DeviceInv (handle d x)
  | .app f => ⟨otaInv_step (d.ota, d.ee) f h.ota, h.ctrl⟩
  | .ctrl i =>
    ⟨otaInv_ctrl h.ota (ctrlHandle_move d.ctrl d.ee i), h.ctrl.move (ctrlHandle_move d.ctrl d.ee i)⟩

theorem deviceInv_step (d : Device) (x : Stimulus) (h : DeviceInv d) :
    DeviceInv (deviceStep d x).1 := deviceInv_handle h x

theorem deviceInv_power (d : Device) (p : PowerEvent) (h : DeviceInv d) :
    DeviceInv (powerStep d p).1 := by
  cases p with
  | run x => exact deviceInv_handle h x
  | cut x k => exact deviceInv_boot _

end BleHidUart.Firmware.Joint
