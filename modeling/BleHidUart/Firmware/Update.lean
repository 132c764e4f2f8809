import BleHidUart.CtrlOta.Dialogue
import BleHidUart.Firmware.Shipping
import BleHidUart.Ota.Sender

/-!
# An update that goes through

In one power cycle the app sends the file, over a link that damages and repeats packets. In the next
one the controller takes the upload, over a link that loses frames and ACKs. In both cycles anything
else may come in between, as long as it leaves the two transfers alone.

* `main_downloads`: the app gets the answers it waits for, and the EEPROM holds the file.
* `main_updates`: the controller is sent the file chunk by chunk, the app is told how far it is, the
  flag is cleared, `main` goes on to the bridge, and the boot after it uploads nothing.
-/

namespace BleHidUart.Firmware.Update

open BleHidUart.Board BleHidUart.CtrlOta.Dialogue BleHidUart.CtrlOta.Machine
open BleHidUart.CtrlOta.Metadata BleHidUart.CtrlOta.Moves BleHidUart.CtrlOta.Transfer
open BleHidUart.Firmware.Joint BleHidUart.Firmware.Main BleHidUart.Firmware.OtaDevice
open BleHidUart.Firmware.Separate BleHidUart.Firmware.Shipping BleHidUart.Lib.Memory
open BleHidUart.Lib.Run BleHidUart.Ota.Handlers BleHidUart.Ota.Receive BleHidUart.Ota.Sender

/-! ### The answers of the download -/

/-- The answers of the download. -/
def otaNotes (fx : List Effect) : List (List UInt8 × ℕ) := notifications (fx.filter isOtaEffect)

theorem otaNotes_append (fx gx : List Effect) :
    otaNotes (fx ++ gx) = otaNotes fx ++ otaNotes gx := by
  unfold otaNotes
  rw [List.filter_append, notifications_append]

theorem otaNotes_ota (c : OtaContext) (f : AppFrame) :
    otaNotes (otaHandle c f).2 = notifications (otaHandle c f).2 :=
  congrArg notifications (List.filter_eq_self.mpr (List.all_eq_true.mp (all_otaHandle c f)))

theorem otaNotes_of_move {g g' : CtrlOtaCtx} {e : Eeprom} {i : CtrlEvent} {fx : List Effect}
    (hm : CtrlMove g e i g' fx) (hi : ¬ IsReply ctrlCmdCrcSuccess i) : otaNotes fx = [] := by
  cases hm with
  | success now => exact absurd rfl hi
  | stay | failed | request | finish | send | timeout | restart | confirm | erased | ackLast
  | ackMore
  | crcFail | refused => rfl

theorem otaNotes_among (d : Device) {xs : List Stimulus} (h : NoSuccess xs) :
    otaNotes (outs deviceStep d xs) =
      notifications (outs otaStep (d.ota, d.ee) (xs.filterMap appOf)) := by
  induction xs generalizing d with
  | nil => rfl
  | cons x xs ih =>
    rw [outs_cons, otaNotes_append,
      ih (deviceStep d x).1 fun i hi => h i (List.mem_cons_of_mem x hi)]
    cases x with
    | app f =>
      have hcons : (Stimulus.app f :: xs).filterMap appOf = f :: xs.filterMap appOf := rfl
      rw [hcons, outs_cons, notifications_append]
      exact congrArg (· ++ _) (otaNotes_ota d.ota f)
    | ctrl i =>
      have hi := h i List.mem_cons_self
      have hsilent : otaNotes (deviceStep d (.ctrl i)).2 = [] :=
        otaNotes_of_move (ctrlHandle_move d.ctrl d.ee i) hi
      rw [hsilent, ee_ctrl d hi]
      rfl

/-! ### The two power cycles -/

section Uart
variable (addr : List UInt8) (e : Eeprom)

/-- In a run of `main` the app sends the file of the attempts, from the stimuli `pre` on. -/
structure Sends (ys : List MainEvent) (pre : List Stimulus) (as : List Attempt) : Prop where
  stimuli : ∃ xs, stimuliIn addr e ys = pre ++ xs ∧ NoSuccess xs ∧
    xs.filterMap appOf = .start (startOfFile (fileOf as)) :: (packetsFrom 0 as).map .data
  idle : (afterStimuli e pre).ota.state = .idle
  nonempty : fileOf as ≠ []
  fits : (fileOf as).length ≤ flagAddr
  attempts : AllOk 0 as

/-- The EEPROM after a run of `main`. -/
abbrev eepromAfter (ys : List MainEvent) : Eeprom := (after addr e ys).firmware.bridge.ee

variable {addr e} {ys : List MainEvent} {pre : List Stimulus} {as : List Attempt}

theorem Sends.run (h : Sends addr e ys pre as) :
    let frames := AppFrame.start (startOfFile (fileOf as)) :: (packetsFrom 0 as).map .data
    let s := ((afterStimuli e pre).ota, (afterStimuli e pre).ee)
    ((after addr e ys).firmware.bridge.ota, eepromAfter addr e ys) = final otaStep s frames ∧
      otaNotes (outs (mainStep addr) (Main.boot e) ys) =
        otaNotes (outs deviceStep (Joint.boot e) pre) ++ notifications (outs otaStep s frames) := by
  obtain ⟨xs, hys, hquiet, hxs⟩ := h.stimuli
  have hfinal := after_frames hys hquiet
  have hnotes := otaNotes_among (afterStimuli e pre) hquiet
  have heffects := (refines_main addr e ys).effects
  rw [hys, outs_append] at heffects
  rw [hxs] at hfinal hnotes
  have hsub : otaNotes (outs (mainStep addr) (Main.boot e) ys) =
      otaNotes ((outs (mainStep addr) (Main.boot e) ys).filter isDeviceEffect) := by
    unfold otaNotes
    rw [List.filter_filter]
    congr 2
    funext o
    cases ho : isOtaEffect o with
    | true => exact (isDeviceEffect_of_isOtaEffect ho).symm
    | false => rfl
  refine ⟨hfinal, ?_⟩
  rw [hsub, heffects, otaNotes_append, hnotes]

/-- **The file arrives.** -/
theorem main_downloads (h : Sends addr e ys pre as) :
    otaNotes (outs (mainStep addr) (Main.boot e) ys) =
        otaNotes (outs deviceStep (Joint.boot e) pre) ++ answers as ∧
      (after addr e ys).firmware.bridge.ota = otaReset ∧
      Downloaded (UInt32.ofNat (fileOf as).length) (otaFileCrcCalculate (fileOf as)) (fileOf as)
        (eepromAfter addr e ys) := by
  obtain ⟨hrun, hnotes⟩ := h.run
  obtain ⟨hreset, hdone, hanswers⟩ := sender_delivers h.nonempty h.fits h.attempts
    (s := ((afterStimuli e pre).ota, (afterStimuli e pre).ee)) h.idle
  rw [← hrun] at hreset hdone
  exact ⟨hnotes.trans (congrArg _ hanswers), hreset, hdone⟩

/-- A packet of four bytes that is sent again, since its CRC does not fit the first time. -/
def damagedOnce : Attempt where
  lost := [⟨[0x53, 0x35, 0x08, 0x0C, 0, 0, 0, 1, 2, 3, 4, 9], rfl, by decide⟩]
  piece := ⟨[1, 2, 3, 4], by decide⟩

/-- A fault query comes together with the damaged packet. -/
def downloadRun : List MainEvent :=
  [writeEvent (startOfFile (fileOf [damagedOnce])).bytes,
    writeEvent ([0x55, 0x05, 0xAA] ++ [0x53, 0x35, 0x08, 0x0C, 0, 0, 0, 1, 2, 3, 4, 9]),
    writeEvent (packetOf 0 0 damagedOnce.piece).bytes]

theorem sends_downloadRun : Sends [] (fun _ => 0) downloadRun [] [damagedOnce] where
  stimuli :=
    let frames := .start (startOfFile (fileOf [damagedOnce])) ::
      (packetsFrom 0 [damagedOnce]).map .data
    ⟨frames.map .app, rfl, noSuccess_app frames, rfl⟩
  idle := rfl
  nonempty := by decide
  fits := by decide
  attempts := ⟨⟨by decide, by decide⟩, trivial⟩

/-- The app is asked for the packet once more. -/
theorem main_downloads_damagedOnce :
    otaNotes (outs (mainStep []) (Main.boot fun _ => 0) downloadRun) =
      [([0x53, 0x35, 0x06, 5, 1], 5), ([0x53, 0x35, 0x07, 5, 1], 5),
      ([0x53, 0x35, 0x08, 7, 0, 0, 2], 7),
        ([0x53, 0x35, 0x08, 7, 0, 0, 1], 7)] :=
  (main_downloads sends_downloadRun).1

variable (addr) in
/-- What the conversation with the controller in the next run leads to. -/
structure Updates (e : Eeprom) (zs : List MainEvent) (file : List UInt8) (c : Conversation) :
    Prop where
  frames : dataFrames ((outs (mainStep addr) (Main.boot e) zs).filter isDeviceEffect) =
    sentFrom file c.exchanges
  payloads : (∀ x ∈ c.exchanges, x.lost = []) →
    ((dataFrames ((outs (mainStep addr) (Main.boot e) zs).filter isDeviceEffect)).map
      payload).flatten = file
  notes : notifications ((outs (mainStep addr) (Main.boot e) zs).filter isDeviceEffect) =
    reportsFrom file.length file c.exchanges ++ [resultOk]
  eeprom : eepromAfter addr e zs = store e flagAddr [ctrlOtaFlagIdle]
  bridge : ∀ now, (after addr e (zs ++ [.event (.mainLoop now), .wakeUp])).phase = .timers
  once : ctrlOtaInit (eepromAfter addr e zs) = {}

theorem leaves_loop {m : MainState} (h : ctrlOtaIsActive m.firmware.ctrl = false) (now : UInt32) :
    (final (mainStep addr) m [.event (.mainLoop now), .wakeUp]).phase = .timers := by
  obtain ⟨f, phase⟩ := m
  cases phase with
  | otaLoop =>
    have hstep : mainStep addr ⟨f, .otaLoop⟩ (.event (.mainLoop now)) = (⟨f, .sleep⟩, []) :=
      if_neg (Bool.eq_false_iff.mp h)
    rw [final_cons, hstep]
    rfl
  | sleep | timers => rfl

theorem updates_of_downloaded {size crc : UInt32} {file : List UInt8}
    (h : Downloaded size crc file e) (hne : file ≠ []) (hfits : size.toNat ≤ flagAddr)
    {zs : List MainEvent} {c : Conversation} (hzs : stimuliIn addr e zs = c.events.map .ctrl)
    (hc : c.Ok ((file.length + 199) / 200)) : Updates addr e zs file c := by
  have hdone := upload_completes h hne hfits hc
  obtain ⟨hstate, heffects⟩ := refines_main addr e zs
  obtain ⟨hfinal, houts⟩ := device_ctrl (Joint.boot e) c.events
  rw [← hzs, ← hstate] at hfinal
  rw [← hzs, ← heffects] at houts
  have hctrl : (after addr e zs).firmware.ctrl.state = .complete :=
    (congrArg (fun s => s.1.state) hfinal).trans hdone.state
  have hee : eepromAfter addr e zs = store e flagAddr [ctrlOtaFlagIdle] :=
    (congrArg Prod.snd hfinal).trans hdone.eeprom
  refine ⟨?_, fun hno => ?_, ?_, hee, fun now => ?_, ?_⟩
  · rw [houts]
    exact hdone.frames
  · rw [houts]
    exact hdone.payloads hno
  · rw [houts]
    exact hdone.notes
  · rw [after, final_append]
    refine leaves_loop ?_ now
    unfold ctrlOtaIsActive
    rw [hctrl]
    rfl
  · refine ctrlOtaInit_idle ?_
    rw [hee, flagByte_store_flag]
    decide

/-- **The update goes through.** -/
theorem main_updates (h : Sends addr e ys pre as) {zs : List MainEvent} {c : Conversation}
    (hzs : stimuliIn addr (eepromAfter addr e ys) zs = c.events.map .ctrl)
    (hc : c.Ok (((fileOf as).length + 199) / 200)) :
    Updates addr (eepromAfter addr e ys) zs (fileOf as) c := by
  obtain ⟨hrun, -⟩ := h.run
  obtain ⟨-, hdone, -⟩ := sender_delivers h.nonempty h.fits h.attempts
    (s := ((afterStimuli e pre).ota, (afterStimuli e pre).ee)) h.idle
  rw [← hrun] at hdone
  refine updates_of_downloaded hdone h.nonempty ?_ hzs hc
  rw [UInt32.toNat_ofNat_of_lt' (lt_of_le_of_lt h.fits (by decide))]
  exact h.fits

/-- The controller asks for patience, and the first ACK is lost. -/
def patient : Conversation where
  asking := [.tick 40, .reply 0x07 45]
  erased := 50
  exchanges := [⟨[⟨⟨60, [70]⟩, 560⟩], ⟨565, [600]⟩, 610⟩]
  checking := [.reply 0x08 620, .tick 630]
  done := 640

/-- The conversation as `main` goes through it, with a status query of the app. -/
def patientRun : List MainEvent :=
  [.event (.mainLoop 40), replyEvent 0x07 45, replyEvent 0x17 50, .event (.mainLoop 60),
    .event (.mainLoop 70), writeEvent [0x55, 0x02, 0xAA], .event (.mainLoop 560),
    .event (.mainLoop 565), .event (.mainLoop 600), replyEvent 0x0B 610, replyEvent 0x08 620,
    .event (.mainLoop 630), replyEvent 0x0C 640]

theorem patient_ok : patient.Ok 1 where
  asking := by decide
  exchanges := by decide
  checking := by decide
  chunks := rfl

/-- The frame goes out twice; then the bridge is up. -/
theorem main_updates_patient :
    Updates [] (eepromAfter [] (fun _ => 0) downloadRun) patientRun [1, 2, 3, 4] patient :=
  main_updates sends_downloadRun rfl patient_ok

end Uart

end BleHidUart.Firmware.Update
