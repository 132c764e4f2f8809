import BleHidUart.Imu.Filter
import BleHidUart.Lib.Word
import Mathlib.Algebra.BigOperators.Intervals
import Mathlib.Algebra.BigOperators.Field

/-!
# The sensor and its calibration

`SC7U22_ReadIMU` takes six words out of twelve bytes, high byte first, scales them and takes the
bias off; `SC7U22_BiasCalculate` reads two hundred times and averages the last 140 readings, with
`9.8` put on the third axis. `gyroTimerCb` is the timer's machine: if the sensor is in use, each
step reads it and runs the filter. The arithmetic is read over the exact rationals.

* `calibrated_mean`: over the readings it was taken from, the calibrated data have the means
  `(0, 0, 9.8)` and `0`.
* `device_sound`: after the calibration the timer runs the filter on the calibrated readings, with
  its bounds, if `gyro_ok` is set. In `main.c` nothing sets it, and then the timer does nothing.
-/

namespace BleHidUart.Imu.Sensor

open BleHidUart.Lib.Run BleHidUart.Lib.Word BleHidUart.Imu.Filter
open Finset (range sum_congr)

/-! ### The source -/

/-- `IMUData`. -/
structure ImuData where
  accelerate : Vector3f
  angular : Vector3f
  biasAccelerate : Vector3f
  biasAngular : Vector3f

/-- The word of two bytes, high byte first, as a signed number. -/
def int16Of (high low : UInt8) : ℤ := ((high.toUInt16 <<< 8) ||| low.toUInt16).toInt16.toInt

/-- The six words of `read_sensor_12bytes`: `reg_ax` to `reg_gz`. -/
structure Registers where
  ax : ℤ
  ay : ℤ
  az : ℤ
  gx : ℤ
  gy : ℤ
  gz : ℤ

/-- The words of the twelve bytes. -/
def registersOf (buf : List UInt8) : Registers :=
  ⟨int16Of (byteAt buf 0) (byteAt buf 1), int16Of (byteAt buf 2) (byteAt buf 3),
    int16Of (byteAt buf 4) (byteAt buf 5), int16Of (byteAt buf 6) (byteAt buf 7),
    int16Of (byteAt buf 8) (byteAt buf 9), int16Of (byteAt buf 10) (byteAt buf 11)⟩

/-- `SC7U22_ACC_SENSITIVITY` and the scale. -/
def accOf (reg : ℤ) : ℚ := reg * 9.8 / 4096

/-- `SC7U22_GYRO_SENSITIVITY` and the scale. -/
def gyroOf (reg : ℤ) : ℚ := reg / 57.3 / 16.4

/-- `SC7U22_ReadIMU`. -/
def readIMU (data : ImuData) (buf : List UInt8) : ImuData :=
  let reg := registersOf buf
  { data with
    accelerate := ⟨accOf reg.ax - data.biasAccelerate.X, accOf reg.ay - data.biasAccelerate.Y,
      accOf reg.az - data.biasAccelerate.Z⟩
    angular := ⟨gyroOf reg.gx - data.biasAngular.X, gyroOf reg.gy - data.biasAngular.Y,
      gyroOf reg.gz - data.biasAngular.Z⟩ }

/-- The loop of `SC7U22_BiasCalculate`: `read k` is what the sensor answers to the read `k`, of two
hundred; `sums` are `sum_bias_acc_x` to `sum_bias_gyro_z`. -/
def biasLoop (read : ℕ → List UInt8) : ℕ → Vector3f × Vector3f → Vector3f × Vector3f
  | 0, sums => sums
  | count + 1, (acc, gyro) =>
    let reg := registersOf (read (200 - (count + 1)))
    let sums : Vector3f × Vector3f :=
      if count + 1 ≤ 140 then
        (⟨acc.X + accOf reg.ax, acc.Y + accOf reg.ay, acc.Z + accOf reg.az⟩,
          ⟨gyro.X + gyroOf reg.gx, gyro.Y + gyroOf reg.gy, gyro.Z + gyroOf reg.gz⟩)
      else (acc, gyro)
    biasLoop read count sums

/-- `SC7U22_BiasCalculate`. -/
def biasCalculate (data : ImuData) (read : ℕ → List UInt8) : ImuData :=
  let (acc, gyro) := biasLoop read 200 (⟨0, 0, 0⟩, ⟨0, 0, 0⟩)
  { data with
    biasAccelerate := ⟨acc.X / 140, acc.Y / 140, acc.Z / 140 - 9.8⟩
    biasAngular := ⟨gyro.X / 140, gyro.Y / 140, gyro.Z / 140⟩ }

/-- The two modules' variables. -/
structure Gyro where
  data : ImuData
  attitude : Attitude

/-- `GyrosCopeDataRead`: what the timer does, with the bytes the sensor answers and the duty cycle
set. -/
def gyrosCopeDataRead (s : Gyro) (buf : List UInt8) : Gyro × List ℕ :=
  let data := readIMU s.data buf
  let (attitude, duties) := imuUpdate s.attitude ⟨data.accelerate, data.angular⟩
  (⟨data, attitude⟩, duties)

/-- The sensor with `gyro_ok` of `main.c`. -/
structure Device where
  gyroOk : Bool
  gyro : Gyro

/-- `gyro_timer_cb`. -/
def gyroTimerCb (s : Device) (buf : List UInt8) : Device × List ℕ :=
  if s.gyroOk then
    let (gyro, duties) := gyrosCopeDataRead s.gyro buf
    ({ s with gyro }, duties)
  else (s, [])

/-- Before anything is read. -/
def zeroData : ImuData := ⟨⟨0, 0, 0⟩, ⟨0, 0, 0⟩, ⟨0, 0, 0⟩, ⟨0, 0, 0⟩⟩

/-- `GyroscopeInit`, with the filter as it is at the start. -/
def gyroscopeInit (read : ℕ → List UInt8) : Gyro := ⟨biasCalculate zeroData read, start⟩

/-- The device after `GyroscopeInit`. -/
def deviceInit (gyroOk : Bool) (read : ℕ → List UInt8) : Device := ⟨gyroOk, gyroscopeInit read⟩

/-! ### The calibration -/

/-- The sum of a scaled register over the last 140 of the reads. -/
def sumOver (read : ℕ → List UInt8) (scaled : Registers → ℚ) : ℚ :=
  ∑ k ∈ range 140, scaled (registersOf (read (60 + k)))

/-- The sums over the first `n` of the last 140 reads. -/
def sumsTo (read : ℕ → List UInt8) (n : ℕ) : Vector3f × Vector3f :=
  (⟨∑ k ∈ range n, accOf (registersOf (read (60 + k))).ax,
      ∑ k ∈ range n, accOf (registersOf (read (60 + k))).ay,
      ∑ k ∈ range n, accOf (registersOf (read (60 + k))).az⟩,
    ⟨∑ k ∈ range n, gyroOf (registersOf (read (60 + k))).gx,
      ∑ k ∈ range n, gyroOf (registersOf (read (60 + k))).gy,
      ∑ k ∈ range n, gyroOf (registersOf (read (60 + k))).gz⟩)

/-- The first sixty reads are thrown away. -/
theorem biasLoop_settle (read : ℕ → List UInt8) (n : ℕ) (sums : Vector3f × Vector3f) :
    biasLoop read (140 + n) sums = biasLoop read 140 sums := by
  induction n with
  | zero => rfl
  | succ n ih =>
    have hcount : ¬140 + n + 1 ≤ 140 := by omega
    rw [← ih, ← Nat.add_assoc, biasLoop, if_neg hcount]

theorem biasLoop_sums (read : ℕ → List UInt8) (count : ℕ) (h : count ≤ 140) :
    biasLoop read count (sumsTo read (140 - count)) = sumsTo read 140 := by
  induction count with
  | zero => rfl
  | succ count ih =>
    have hidx : 200 - (count + 1) = 60 + (140 - (count + 1)) := by omega
    have hnext : 140 - count = 140 - (count + 1) + 1 := by omega
    rw [← ih (by omega), hnext]
    simp only [sumsTo, biasLoop, if_pos h, hidx, Finset.sum_range_succ]

/-- **The calibration**: the means of the last 140 readings. -/
theorem biasCalculate_eq (data : ImuData) (read : ℕ → List UInt8) : biasCalculate data read =
    { data with
      biasAccelerate := ⟨sumOver read (accOf ·.ax) / 140, sumOver read (accOf ·.ay) / 140,
        sumOver read (accOf ·.az) / 140 - 9.8⟩
      biasAngular := ⟨sumOver read (gyroOf ·.gx) / 140, sumOver read (gyroOf ·.gy) / 140,
        sumOver read (gyroOf ·.gz) / 140⟩ } := by
  have hloop : biasLoop read 200 (⟨0, 0, 0⟩, ⟨0, 0, 0⟩) = sumsTo read 140 := by
    have hzero : (⟨⟨0, 0, 0⟩, ⟨0, 0, 0⟩⟩ : Vector3f × Vector3f) = sumsTo read (140 - 140) := by
      simp [sumsTo]
    rw [hzero, ← biasLoop_sums read 140 le_rfl, ← biasLoop_settle read 60]
  simp only [biasCalculate, hloop, sumsTo, sumOver]

/-- The mean over the readings that the calibration is taken from. -/
def meanOver (read : ℕ → List UInt8) (reading : List UInt8 → ℚ) : ℚ :=
  (∑ k ∈ range 140, reading (read (60 + k))) / 140

/-- What the calibrated sensor reads. -/
def calibrated (read : ℕ → List UInt8) (buf : List UInt8) : ImuData :=
  readIMU (gyroscopeInit read).data buf

theorem meanOver_sub (read : ℕ → List UInt8) (reading : List UInt8 → ℚ) (c : ℚ) :
    meanOver read (fun buf => reading buf - c) = meanOver read reading - c := by
  have hsum : ∑ k ∈ range 140, (reading (read (60 + k)) - c) =
      (∑ k ∈ range 140, reading (read (60 + k))) - 140 * c := by
    rw [Finset.sum_sub_distrib, Finset.sum_const, Finset.card_range, nsmul_eq_mul]
    norm_num
  rw [meanOver, hsum, meanOver, sub_div]
  ring

theorem sumOver_div (read : ℕ → List UInt8) (scaled : Registers → ℚ) :
    sumOver read scaled / 140 = meanOver read fun buf => scaled (registersOf buf) := rfl

/-- **Calibrated data**: the means over the readings of the calibration. -/
theorem calibrated_mean (read : ℕ → List UInt8) :
    (meanOver read (fun buf => (calibrated read buf).accelerate.X) = 0 ∧
      meanOver read (fun buf => (calibrated read buf).accelerate.Y) = 0 ∧
      meanOver read (fun buf => (calibrated read buf).accelerate.Z) = 9.8) ∧
    meanOver read (fun buf => (calibrated read buf).angular.X) = 0 ∧
      meanOver read (fun buf => (calibrated read buf).angular.Y) = 0 ∧
      meanOver read (fun buf => (calibrated read buf).angular.Z) = 0 := by
  simp only [calibrated, gyroscopeInit, biasCalculate_eq, readIMU, meanOver_sub, sumOver_div,
    sub_self, sub_sub_cancel, and_self]

/-! ### Every run -/

/-- What the filter is given of a reading. -/
def sampleOf (read : ℕ → List UInt8) (buf : List UInt8) : Sample :=
  ⟨(calibrated read buf).accelerate, (calibrated read buf).angular⟩

/-- The sensor is in use with the bias of the calibration, and the filter is in the state `a`. -/
structure Shows (read : ℕ → List UInt8) (s : Device) (a : Attitude) : Prop where
  ok : s.gyroOk = true
  acc : s.gyro.data.biasAccelerate = (gyroscopeInit read).data.biasAccelerate
  rates : s.gyro.data.biasAngular = (gyroscopeInit read).data.biasAngular
  filter : s.gyro.attitude = a

theorem gyroTimerCb_eq {read : ℕ → List UInt8} {s : Device} {a : Attitude} (h : Shows read s a)
    (buf : List UInt8) : Shows read (gyroTimerCb s buf).1 (imuUpdate a (sampleOf read buf)).1 ∧
      (gyroTimerCb s buf).2 = (imuUpdate a (sampleOf read buf)).2 := by
  have hsample : (⟨(readIMU s.gyro.data buf).accelerate, (readIMU s.gyro.data buf).angular⟩ :
      Sample) = sampleOf read buf := by
    simp only [readIMU, sampleOf, calibrated, h.acc, h.rates]
  have hstep : gyroTimerCb s buf =
      ({ s with gyro := (gyrosCopeDataRead s.gyro buf).1 }, (gyrosCopeDataRead s.gyro buf).2) :=
    if_pos h.ok
  rw [hstep]
  simp only [gyrosCopeDataRead, hsample, h.filter]
  exact ⟨⟨h.ok, h.acc, h.rates, rfl⟩, trivial⟩

theorem shows_step (read : ℕ → List UInt8) (s : Device) (a : Attitude) (buf : List UInt8)
    (h : Shows read s a) : Shows read (gyroTimerCb s buf).1 (imuUpdate a (sampleOf read buf)).1 :=
  (gyroTimerCb_eq h buf).1

theorem shows_outs (read : ℕ → List UInt8) (s : Device) (a : Attitude) (buf : List UInt8)
    (h : Shows read s a) :
    List.Forall₂ Eq (gyroTimerCb s buf).2 (imuUpdate a (sampleOf read buf)).2 := by
  rw [(gyroTimerCb_eq h buf).2]
  exact List.forall₂_eq_eq_eq ▸ rfl

theorem gyroTimerCb_off {s : Device} (h : s.gyroOk = false) (bufs : List (List UInt8)) :
    final gyroTimerCb s bufs = s ∧ outs gyroTimerCb s bufs = [] := by
  have hstep : ∀ buf, gyroTimerCb s buf = (s, []) := fun buf =>
    if_neg (Bool.eq_false_iff.mp h)
  induction bufs with
  | nil => exact ⟨rfl, rfl⟩
  | cons buf bufs ih =>
    rw [final_cons, outs_cons, hstep]
    exact ih

theorem length_outs (s : Attitude) (ds : List Sample) :
    (outs imuUpdate s ds).length = ds.countP (fun d => ¬Skipped d) := by
  induction ds generalizing s with
  | nil => rfl
  | cons d ds ih =>
    rw [outs_cons, List.length_append, ih, List.countP_cons]
    rcases imuUpdate_cases s d with ⟨hd, hs⟩ | ⟨hd, hs⟩
    · rw [hs]
      simp [hd]
    · rw [hs]
      simp [hd, Nat.add_comm]

/-- **The device on every run**, over the exact rationals. Over the readings of the calibration, the
calibrated data have the mean `(0, 0, 9.8)` and `0`. From then on, if the sensor is in use, the
timer runs the filter on the calibrated readings: what `filter_sound` says of the attitude holds of
the device, and each reading with three coordinates sets one duty cycle, of at most `100`. With
`gyro_ok` as `main.c` leaves it, the timer does nothing. -/
theorem device_sound (read : ℕ → List UInt8) (bufs : List (List UInt8)) :
    ((meanOver read (fun buf => (sampleOf read buf).accelerate.X) = 0 ∧
        meanOver read (fun buf => (sampleOf read buf).accelerate.Y) = 0 ∧
        meanOver read (fun buf => (sampleOf read buf).accelerate.Z) = 9.8) ∧
      meanOver read (fun buf => (sampleOf read buf).angular.X) = 0 ∧
        meanOver read (fun buf => (sampleOf read buf).angular.Y) = 0 ∧
        meanOver read (fun buf => (sampleOf read buf).angular.Z) = 0) ∧
    (Sound bufs.length (final gyroTimerCb (deviceInit true read) bufs).gyro.attitude ∧
      (outs gyroTimerCb (deviceInit true read) bufs).length =
        (bufs.map (sampleOf read)).countP (fun d => ¬Skipped d) ∧
      ∀ duty ∈ outs gyroTimerCb (deviceInit true read) bufs, duty ≤ 100) ∧
    final gyroTimerCb (deviceInit false read) bufs = deviceInit false read ∧
      outs gyroTimerCb (deviceInit false read) bufs = [] := by
  refine ⟨calibrated_mean read, ?_, gyroTimerCb_off rfl bufs⟩
  have hstart : Shows read (deviceInit true read) start := ⟨rfl, rfl, rfl, rfl⟩
  have hfinal := (final_related (shows_step read) hstart bufs).filter
  have houts : outs gyroTimerCb (deviceInit true read) bufs =
      outs imuUpdate start (bufs.map (sampleOf read)) :=
    List.forall₂_eq_eq_eq ▸ outs_related (shows_step read) (shows_outs read) hstart bufs
  have hrun := sound_run sound_start (bufs.map (sampleOf read))
  rw [Nat.zero_add, List.length_map] at hrun
  refine ⟨?_, ?_, ?_⟩
  · rwa [hfinal]
  · rw [houts, length_outs]
  · rintro duty hduty
    rw [houts] at hduty
    obtain ⟨pitch, ax, rfl⟩ := dutyOf_of_mem_outs hduty
    exact dutyOf_le pitch ax

end BleHidUart.Imu.Sensor
