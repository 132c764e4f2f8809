import BleHidUart.Firmware.OtaDevice

/-!
# A controller that does not answer

The upload waits for its replies without a limit: a request and a data frame are repeated, the other
states just wait. Only `ERROR` is left by itself, for a new request phase at the start of the image.

`silence` says what follows for `main`, in a stretch without a reply: the controller gets nothing of
the upload but one request, or the data frames of one chunk, and if the app sends no OTA frame
meanwhile, these are one and the same frame; and in `FILED` every round of the loop notifies the app
of the failure once more.
-/

namespace BleHidUart.Firmware.Silence

open BleHidUart.Board BleHidUart.CtrlOta.Machine BleHidUart.CtrlOta.Moves BleHidUart.Firmware.Calls
open BleHidUart.Firmware.Joint BleHidUart.Firmware.Machine BleHidUart.Firmware.Main
open BleHidUart.Firmware.OtaDevice BleHidUart.Firmware.Separate BleHidUart.Firmware.Traffic
open BleHidUart.Lib.Run BleHidUart.Ota.Handlers

/-! ### The upload -/

/-- The states in which the request is sent. -/
def Requesting (g : CtrlOtaCtx) : Prop := g.state = .sendRequest ∨ g.state = .error

/-- The states in which data is sent. -/
def Sending (g : CtrlOtaCtx) : Prop := g.state = .sendData ∨ g.state = .waitDataAck

instance (g : CtrlOtaCtx) : Decidable (Requesting g) := inferInstanceAs (Decidable (_ ∨ _))

instance (g : CtrlOtaCtx) : Decidable (Sending g) := inferInstanceAs (Decidable (_ ∨ _))

/-- The frame that the upload repeats without a reply, with the EEPROM `e`: the request, or the data
frame of the next chunk. -/
def echo (g : CtrlOtaCtx) (e : Eeprom) : Option (List UInt8) :=
  if Requesting g then some (requestFrame g)
  else if Sending g ∧ g.sentLength ≠ g.fileLength then some (dataFrame g e)
  else none

/-- The two contexts are at the same position of the same image. -/
structure SamePlace (g g' : CtrlOtaCtx) : Prop where
  sent : g'.sentLength = g.sentLength
  addr : g'.eepromReadAddr = g.eepromReadAddr

/-- How far the upload can come from `g` without a reply. -/
inductive Stage (g g' : CtrlOtaCtx) : Prop
  | asking : g.state = .sendRequest → g'.state = .sendRequest → SamePlace g g' → Stage g g'
  | restarted : g.state = .error → g'.state = .sendRequest → g'.sentLength = 0 →
      g'.eepromReadAddr = 0 → Stage g g'
  | sending : Sending g → Sending g' → SamePlace g g' → Stage g g'
  | finished : Sending g → g.sentLength = g.fileLength → g'.state = .waitComplete → SamePlace g g' →
      Stage g g'
  | parked : g.state ≠ .sendRequest → ¬Sending g → g' = g → Stage g g'

/-- `g'` comes after `g` without a reply. -/
structure Stalled (g g' : CtrlOtaCtx) : Prop where
  length : g'.fileLength = g.fileLength
  crc : g'.fileCrc = g.fileCrc
  stage : Stage g g'

theorem stalled_refl (g : CtrlOtaCtx) : Stalled g g := by
  refine ⟨rfl, rfl, ?_⟩
  by_cases hr : g.state = .sendRequest
  · exact .asking hr hr ⟨rfl, rfl⟩
  · by_cases hs : Sending g
    · exact .sending hs hs ⟨rfl, rfl⟩
    · exact .parked hr hs rfl

section Echo
variable {g g' : CtrlOtaCtx}

theorem not_sending {st : CtrlOtaState} (hs : g.state = st)
    (hst : st ≠ .sendData ∧ st ≠ .waitDataAck) : ¬Sending g := by
  rintro (h | h)
  · exact hst.1 (hs.symm.trans h)
  · exact hst.2 (hs.symm.trans h)

theorem Stage.of_request (h : Stage g g') (hs : g'.state = .sendRequest) :
    g.state = .sendRequest ∧ SamePlace g g' ∨
      g.state = .error ∧ g'.sentLength = 0 ∧ g'.eepromReadAddr = 0 := by
  cases h with
  | asking hg _ hp => exact .inl ⟨hg, hp⟩
  | restarted hg _ h0 h0' => exact .inr ⟨hg, h0, h0'⟩
  | sending _ hs' => exact absurd hs' (not_sending hs (by decide))
  | finished _ _ hs' =>
    rw [hs] at hs'
    cases hs'
  | parked hr _ heq => exact absurd (heq ▸ hs) hr

theorem Stage.of_sending (h : Stage g g') (hs : Sending g') : Sending g ∧ SamePlace g g' := by
  cases h with
  | asking _ hs' | restarted _ hs' | finished _ _ hs' =>
    exact absurd hs (not_sending hs' (by decide))
  | sending hg _ hp => exact ⟨hg, hp⟩
  | parked _ hg heq => exact absurd (heq ▸ hs) hg

theorem Stage.of_error (h : Stage g g') (hs : g'.state = .error) : g' = g := by
  cases h with
  | asking _ hs' | restarted _ hs' | finished _ _ hs' =>
    rw [hs] at hs'
    cases hs'
  | sending _ hs' => exact absurd hs' (not_sending hs (by decide))
  | parked _ _ heq => exact heq

theorem echo_request (h : Stalled g g') (hr : Requesting g) (e : Eeprom) :
    echo g e = some (requestFrame g') := by
  rw [echo, if_pos hr]
  unfold requestFrame
  rw [h.length, h.crc]

theorem echo_data (h : Stalled g g') (hg : Sending g) (hp : SamePlace g g')
    (hmore : g'.sentLength ≠ g'.fileLength) (e : Eeprom) : echo g e = some (dataFrame g' e) := by
  have hno : ¬Requesting g := by
    rintro (hr | hr) <;> exact not_sending hr (by decide) hg
  rw [hp.sent, h.length] at hmore
  rw [echo, if_neg hno, if_pos ⟨hg, hmore⟩]
  have hchunk : ctrlOtaChunk g' = ctrlOtaChunk g := by
    unfold ctrlOtaChunk
    rw [h.length, hp.sent]
  unfold dataFrame chunkBytes
  rw [hchunk, h.length, hp.sent, hp.addr]

/-- **A round of the loop without a reply.** -/
theorem stalled_tick {g'' : CtrlOtaCtx} {e : Eeprom} {now : UInt32} {fx : List Effect}
    (h : Stalled g g') (hm : CtrlMove g' e (.tick now) g'' fx) :
    Stalled g g'' ∧ ∀ d ∈ uartWrites fx, echo g e = some d := by
  have hquiet : ∀ d ∈ uartWrites [], echo g e = some d := fun d hd => absurd hd List.not_mem_nil
  cases hm with
  | stay => exact ⟨h, hquiet⟩
  | failed now hs => exact ⟨h, hquiet⟩
  | request now hs =>
    have hframe : Requesting g → ∀ d ∈ uartWrites [ctrlOtaSendRequest g'], echo g e = some d := by
      intro hr d hd
      rw [echo_request h hr, List.mem_singleton.mp hd]
      rfl
    rcases h.stage.of_request hs with ⟨hg, hp⟩ | ⟨hg, h0, h0'⟩
    · exact ⟨⟨h.length, h.crc, .asking hg hs ⟨hp.sent, hp.addr⟩⟩, hframe (.inl hg)⟩
    · exact ⟨⟨h.length, h.crc, .restarted hg hs h0 h0'⟩, hframe (.inr hg)⟩
  | finish now hs hsent =>
    obtain ⟨hg, hp⟩ := h.stage.of_sending (.inl hs)
    have hdone : g.sentLength = g.fileLength := by rw [← hp.sent, ← h.length, hsent]
    exact ⟨⟨h.length, h.crc, .finished hg hdone rfl ⟨hp.sent, hp.addr⟩⟩, hquiet⟩
  | send now hs hmore =>
    obtain ⟨hg, hp⟩ := h.stage.of_sending (.inl hs)
    refine ⟨⟨h.length, h.crc, .sending hg (.inr rfl) ⟨hp.sent, hp.addr⟩⟩, fun d hd => ?_⟩
    rw [echo_data h hg hp hmore, List.mem_singleton.mp hd]
    rfl
  | timeout now hs =>
    obtain ⟨hg, hp⟩ := h.stage.of_sending (.inr hs)
    exact ⟨⟨h.length, h.crc, .sending hg (.inl rfl) ⟨hp.sent, hp.addr⟩⟩, hquiet⟩
  | restart now hs =>
    have hg : g.state = .error := by rw [← h.stage.of_error hs, hs]
    exact ⟨⟨h.length, h.crc, .restarted hg rfl rfl rfl⟩, hquiet⟩

end Echo

/-! ### The device -/

section Device
variable {g : CtrlOtaCtx} {d : Device}

theorem uartWrites_app (d : Device) (f : AppFrame) : uartWrites (deviceStep d (.app f)).2 = [] := by
  refine List.eq_nil_iff_forall_not_mem.mpr fun w hw => ?_
  have hota := List.all_eq_true.mp (all_otaHandle d.ota f) _ (mem_uartWrites.mp hw)
  cases hota

theorem stalled_stimulus {x : Stimulus} (hx : ∀ cmd now, .ctrl (.reply cmd now) ≠ x)
    (h : Stalled g d.ctrl) : Stalled g (deviceStep d x).1.ctrl ∧
      ∀ w ∈ uartWrites (deviceStep d x).2, echo g d.ee = some w := by
  cases x with
  | app f =>
    rw [uartWrites_app]
    exact ⟨h, fun w hw => absurd hw List.not_mem_nil⟩
  | ctrl i =>
    cases i with
    | reply cmd now => exact absurd rfl (hx cmd now)
    | tick now => exact stalled_tick h (ctrlHandle_move d.ctrl d.ee (.tick now))

/-- Without a reply the EEPROM stays, as long as the app sends no frame of the download. -/
theorem ee_stimulus {x : Stimulus} (hx : ∀ cmd now, .ctrl (.reply cmd now) ≠ x)
    (hno : ∃ i, x = .ctrl i) : (deviceStep d x).1.ee = d.ee := by
  obtain ⟨i, rfl⟩ := hno
  refine ee_ctrl d ?_
  cases i with
  | reply cmd now => exact absurd rfl (hx cmd now)
  | tick now => exact id

/-- **A stretch without a reply.** -/
theorem stalled_run {xs : List Stimulus} (hr : Unanswered xs) (h : Stalled g d.ctrl) :
    Stalled g (final deviceStep d xs).ctrl ∧
      (∀ w ∈ uartWrites (outs deviceStep d xs), ∃ e, echo g e = some w) ∧
      (NoFrame xs → (final deviceStep d xs).ee = d.ee ∧
        ∀ w ∈ uartWrites (outs deviceStep d xs), echo g d.ee = some w) := by
  induction xs generalizing d with
  | nil =>
    exact ⟨h, fun w hw => absurd hw List.not_mem_nil,
      fun _ => ⟨rfl, fun w hw => absurd hw List.not_mem_nil⟩⟩
  | cons x xs ih =>
    have hx : ∀ cmd now, .ctrl (.reply cmd now) ≠ x := fun cmd now heq =>
      hr cmd now (heq ▸ List.mem_cons_self)
    obtain ⟨hnext, hout⟩ := stalled_stimulus hx h
    obtain ⟨hend, houts, hsame⟩ :=
      ih (fun cmd now hm => hr cmd now (List.mem_cons_of_mem x hm)) hnext
    rw [final_cons, outs_cons, uartWrites_append]
    refine ⟨hend, List.forall_mem_append.mpr ⟨fun w hw => ⟨d.ee, hout w hw⟩, houts⟩, fun hno => ?_⟩
    obtain ⟨hone, hrest⟩ := List.forall_mem_cons.mp hno
    have hee := ee_stimulus (d := d) hx hone
    obtain ⟨hee', hecho⟩ := hsame hrest
    rw [hee] at hee' hecho
    exact ⟨hee', List.forall_mem_append.mpr ⟨hout, hecho⟩⟩

end Device

/-! ### The program -/

section Uart
variable {addr : List UInt8}

/-- The rounds of the loop. -/
def rounds (ys : List MainEvent) : ℕ :=
  ys.countP fun | .event (.mainLoop _) => true | _ => false

/-- The notification of a failure. -/
def failure : List UInt8 × ℕ := ([0x53, 0x35, ctrlOtaV3Result, 0x05, ctrlOtaResultFailed], 5)

theorem mem_deviceWrites {d : List UInt8} {fx : List Effect} (hd : d ∈ uartWrites fx)
    (hup : IsUpload d) : d ∈ uartWrites (fx.filter isDeviceEffect) :=
  mem_uartWrites.mpr (List.mem_filter.mpr ⟨mem_uartWrites.mp hd, decide_eq_true hup.1⟩)

/-- A stretch of `main` without a reply, as the upload sees it. -/
theorem stalled_main {m : MainState} {ys : List MainEvent}
    (hr : Unanswered (stimuliFrom addr m ys)) :
    Stalled m.firmware.ctrl (final (mainStep addr) m ys).firmware.ctrl ∧
      (∀ d ∈ uartWrites (outs (mainStep addr) m ys), IsUpload d →
        ∃ e, echo m.firmware.ctrl e = some d) ∧
      (NoFrame (stimuliFrom addr m ys) →
        (final (mainStep addr) m ys).firmware.bridge.ee = m.firmware.bridge.ee ∧
        ∀ d ∈ uartWrites (outs (mainStep addr) m ys), IsUpload d →
          echo m.firmware.ctrl m.firmware.bridge.ee = some d) := by
  obtain ⟨hstate, heffects⟩ := device_main addr m ys
  obtain ⟨hend, houts, hsame⟩ :=
    stalled_run (d := deviceOf m.firmware) hr (stalled_refl m.firmware.ctrl)
  rw [← hstate] at hend hsame
  rw [← heffects] at houts hsame
  exact ⟨hend, fun d hd hup => houts d (mem_deviceWrites hd hup), fun hno =>
    ⟨(hsame hno).1, fun d hd hup => (hsame hno).2 d (mem_deviceWrites hd hup)⟩⟩

theorem stimuliFrom_cons (m : MainState) (y : MainEvent) (ys : List MainEvent) :
    stimuliFrom addr m (y :: ys) = stimuliFrom addr m [y] ++
      stimuliFrom addr (mainStep addr m y).1 ys := by
  have hone : handledIn addr m [y] = handled m y := List.append_nil _
  have hsplit : callsOfRun addr m.firmware (handledIn addr m (y :: ys)) =
      callsOfRun addr m.firmware (handledIn addr m [y]) ++
        callsOfRun addr (mainStep addr m y).1.firmware
          (handledIn addr (mainStep addr m y).1 ys) := by
    rw [hone, (mainStep_handled addr m y).1]
    exact batches_append ..
  rw [stimuliFrom, hsplit, List.filterMap_append]
  rfl

/-- In `FILED` the loop goes on, and a round of it notifies the app. -/
theorem filed_step {m : MainState} {y : MainEvent} (hr : Unanswered (stimuliFrom addr m [y]))
    (hs : m.firmware.ctrl.state = .filed) (hp : m.phase = .otaLoop) :
    (mainStep addr m y).1.firmware.ctrl.state = .filed ∧ (mainStep addr m y).1.phase = .otaLoop ∧
      rounds [y] ≤ (notifications (mainStep addr m y).2).count failure := by
  have hactive : ctrlOtaIsActive m.firmware.ctrl = true := by
    unfold ctrlOtaIsActive
    rw [hs]
    decide
  have hstage := (stalled_main hr).1.stage
  have hstate : (mainStep addr m y).1.firmware.ctrl.state = .filed := by
    cases hstage with
    | asking h | restarted h =>
      rw [hs] at h
      cases h
    | sending h | finished h => exact absurd h (not_sending hs (by decide))
    | parked _ _ h => exact (congrArg CtrlOtaCtx.state h).trans hs
  refine ⟨hstate, ?_, ?_⟩
  · by_contra hleft
    rcases (@phase_step addr m y).1.mp hleft with h | ⟨-, h⟩
    · exact h hp
    · exact absurd (hactive.symm.trans h) (by decide)
  · cases y with
    | wakeUp => exact Nat.zero_le _
    | event x =>
      cases x with
      | mainLoop now =>
        have hout : (mainStep addr m (.event (.mainLoop now))).2 =
            [ctrlOtaNotifyResult ctrlOtaResultFailed] := by
          have hprocess : ctrlOtaProcess m.firmware.ctrl m.firmware.bridge.ee now =
              (m.firmware.ctrl, [ctrlOtaNotifyResult ctrlOtaResultFailed]) := by
            unfold ctrlOtaProcess
            rw [hs]
          simp only [mainStep, hp, hactive, if_true, run, firmwareStep, ctrlHandle, hprocess]
        rw [hout]
        exact le_rfl
      | appData | uart | handshakeTick | timeoutTick => exact Nat.zero_le _

theorem rounds_cons (y : MainEvent) (ys : List MainEvent) :
    rounds (y :: ys) = rounds [y] + rounds ys := by
  unfold rounds
  rw [← List.singleton_append, List.countP_append]

theorem filed_run {m : MainState} {ys : List MainEvent} (hr : Unanswered (stimuliFrom addr m ys))
    (hs : m.firmware.ctrl.state = .filed) (hp : m.phase = .otaLoop) :
    rounds ys ≤ (notifications (outs (mainStep addr) m ys)).count failure := by
  induction ys generalizing m with
  | nil => exact Nat.zero_le _
  | cons y ys ih =>
    rw [stimuliFrom_cons] at hr
    obtain ⟨hs', hp', hone⟩ :=
      filed_step (fun cmd now hm => hr cmd now (List.mem_append_left _ hm)) hs hp
    have hrest := ih (fun cmd now hm => hr cmd now (List.mem_append_right _ hm)) hs' hp'
    rw [rounds_cons, outs_cons, notifications_append, List.count_append]
    exact Nat.add_le_add hone hrest

/-- **Without a reply, no progress.** In a stretch of `main` in which no reply reaches the upload,
its state and its place are as `Stage` says, and the controller gets nothing of the upload but the
request or the data frames of one chunk. If the app sends no frame of the download meanwhile, the
EEPROM stays, and these are one and the same frame. In `FILED` each round of the loop notifies the
app of the failure. -/
theorem silence (m : MainState) (ys : List MainEvent) (hr : Unanswered (stimuliFrom addr m ys)) :
    Stalled m.firmware.ctrl (final (mainStep addr) m ys).firmware.ctrl ∧
      (∀ d ∈ uartWrites (outs (mainStep addr) m ys), IsUpload d →
        ∃ e, echo m.firmware.ctrl e = some d) ∧
      (NoFrame (stimuliFrom addr m ys) →
        (final (mainStep addr) m ys).firmware.bridge.ee = m.firmware.bridge.ee ∧
        ∀ d ∈ uartWrites (outs (mainStep addr) m ys), IsUpload d →
          echo m.firmware.ctrl m.firmware.bridge.ee = some d) ∧
      (m.firmware.ctrl.state = .filed → m.phase = .otaLoop →
        rounds ys ≤ (notifications (outs (mainStep addr) m ys)).count failure) :=
  ⟨(stalled_main hr).1, (stalled_main hr).2.1, (stalled_main hr).2.2,
    fun hs hp => filed_run hr hs hp⟩

end Uart

/-- The upload of four bytes is about to send them. -/
def sendingFour : MainState :=
  ⟨⟨{ ee := fun _ => 0 }, { state := .sendData, fileLength := 4 }, {}, true⟩, .otaLoop⟩

/-- The upload has failed. -/
def failed : MainState := ⟨⟨{ ee := fun _ => 0 }, { state := .filed }, {}, true⟩, .otaLoop⟩

/-- Time for two frames, and a fault query of the app. -/
def unanswered : List MainEvent :=
  [.event (.mainLoop 5), .event (.appData [0x55, 0x05, 0xAA] fun _ => 100), .event (.mainLoop 600),
    .event (.mainLoop 605)]

/-- Both frames are the chunk of four zeros; a failed upload notifies the app three times. -/
theorem silence_unanswered :
    (∀ d ∈ uartWrites (outs (mainStep []) sendingFour unanswered), IsUpload d →
        d = [0xEB, 0x90, 0xEB, 0x90, 0xEB, 0x90, 0x0E, 0x2B, 0x00, 0, 0, 0, 0, 0]) ∧
      3 ≤ (notifications (outs (mainStep []) failed unanswered)).count failure := by
  have hr : Unanswered (stimuliFrom [] sendingFour unanswered) := by
    rintro cmd now (_ | ⟨_, _ | ⟨_, _ | ⟨_, ⟨⟩⟩⟩⟩)
  have hr' : Unanswered (stimuliFrom [] failed unanswered) := by
    rintro cmd now (_ | ⟨_, _ | ⟨_, _ | ⟨_, ⟨⟩⟩⟩⟩)
  have hno : NoFrame (stimuliFrom [] sendingFour unanswered) :=
    noFrame_map [.tick 5, .tick 600, .tick 605]
  exact ⟨fun d hd hup => (Option.some.inj (((silence _ _ hr).2.2.1 hno).2 d hd hup)).symm,
    (silence _ _ hr').2.2.2 rfl rfl⟩

end BleHidUart.Firmware.Silence
