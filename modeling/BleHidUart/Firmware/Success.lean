import BleHidUart.Firmware.Joint

/-!
# When success is reported

The reply `CRC_SUCCESS` is handled in every state of the upload, unlike the replies before it. So
`success_iff`: each report of success comes after a complete, acknowledged transfer exactly when
this reply only arrives in `WAIT_COMPLETE`. The runs are those of the whole device, with reboots at
any moment.
-/

namespace BleHidUart.Firmware.Success

open BleHidUart.Board BleHidUart.CtrlOta.Metadata BleHidUart.CtrlOta.Machine
open BleHidUart.CtrlOta.Moves BleHidUart.CtrlOta.Transfer BleHidUart.Lib.Run BleHidUart.Ota.Handlers
open BleHidUart.Ota.Moves BleHidUart.Firmware.Joint

/-! ### Acknowledged bytes -/

/-- The payload of the last data frame, and the payloads acknowledged since the transfer last
started over. -/
structure Acked where
  last : List UInt8 := []
  bytes : List UInt8 := []

/-- What an event of the controller side adds. -/
def recordAck (h : Acked) (g : CtrlOtaCtx) (i : CtrlEvent) (fx : List Effect) (g' : CtrlOtaCtx) :
    Acked :=
  if g'.state = .sendRequest ∧ g.state ≠ .sendRequest then {}
  else
    { last := ((dataFrames fx).getLast?.map payload).getD h.last
      bytes := if IsReply ctrlCmdDataAck i ∧ g.state = .waitDataAck then h.bytes ++ h.last
        else h.bytes }

/-- What an event of the device adds; a boot starts over. -/
def recordPower (h : Acked) (d : Device) (p : PowerEvent) (fx : List Effect) (d' : Device) :
    Acked :=
  match p with
  | .run (.app _) => h
  | .run (.ctrl i) => recordAck h d.ctrl i fx d'.ctrl
  | .cut _ _ => {}

/-- The device with this history. -/
abbrev ackStep : Device × Acked → PowerEvent → (Device × Acked) × List Effect :=
  withHistory powerStep recordPower

/-! ### The property and the condition -/

/-- The app is told that the upload succeeded. -/
def ReportsSuccess (fx : List Effect) : Prop := ctrlOtaNotifyResult ctrlOtaResultOk ∈ fx

instance (fx : List Effect) : Decidable (ReportsSuccess fx) :=
  inferInstanceAs (Decidable (_ ∈ fx))

/-- If an event reports success, the machine was in `WAIT_COMPLETE` and all of the file had been
sent and acknowledged; and if its handler runs to the end, the flag is cleared and the upload
complete. -/
def SuccessJustified (s : Device × Acked) (p : PowerEvent) : Prop :=
  ReportsSuccess (powerStep s.1 p).2 →
    s.1.ctrl.state = .waitComplete ∧ s.1.ctrl.sentLength = s.1.ctrl.fileLength ∧
    s.2.bytes.length = s.1.ctrl.fileLength.toNat ∧
    ∀ x, p = .run x → flagByte (powerStep s.1 p).1.ee = ctrlOtaFlagIdle ∧
      (powerStep s.1 p).1.ctrl.state = .complete

/-- The event is a `CRC_SUCCESS` reply. -/
def IsSuccessReply : PowerEvent → Prop
  | .run (.ctrl i) | .cut (.ctrl i) _ => IsReply ctrlCmdCrcSuccess i
  | .run (.app _) | .cut (.app _) _ => False

instance : (p : PowerEvent) → Decidable (IsSuccessReply p)
  | .run (.ctrl i) | .cut (.ctrl i) _ => inferInstanceAs (Decidable (IsReply _ i))
  | .run (.app _) | .cut (.app _) _ => .isFalse id

/-- A `CRC_SUCCESS` reply arrives in `WAIT_COMPLETE`. -/
def SuccessExpected (d : Device) (p : PowerEvent) : Prop :=
  IsSuccessReply p → d.ctrl.state = .waitComplete

instance (d : Device) (p : PowerEvent) : Decidable (SuccessExpected d p) :=
  inferInstanceAs (Decidable (_ → _))

/-! ### The invariant -/

/-- **The invariant**: the acknowledged bytes are those the context counts as sent, and the payload
waiting for its ACK is the next chunk. -/
structure AckInv (g : CtrlOtaCtx) (h : Acked) : Prop where
  ctrl : CtrlInv g
  start : g.state = .sendRequest ∨ g.state = .waitConfirm → h.bytes = []
  bytes : g.state = .sendData ∨ g.state = .waitDataAck ∨ g.state = .waitComplete →
    h.bytes.length = g.sentLength.toNat
  last : g.state = .waitDataAck → h.last.length = (ctrlOtaChunk g).toNat

theorem ackInv_boot (e : Eeprom) : AckInv (ctrlOtaInit e) {} := by
  refine ⟨ctrlInv_init e, fun _ => rfl, ?_, ?_⟩
  · by_cases h : flagByte e = ctrlOtaFlagReady
    · rw [ctrlOtaInit_ready h]
      simp
    · rw [ctrlOtaInit_idle h]
      simp
  · by_cases h : flagByte e = ctrlOtaFlagReady
    · rw [ctrlOtaInit_ready h]
      simp
    · rw [ctrlOtaInit_idle h]
      simp

variable {g g' : CtrlOtaCtx} {e : Eeprom} {i : CtrlEvent} {fx : List Effect} {h : Acked}

theorem recordAck_quiet (hs : g'.state = .sendRequest → g.state = .sendRequest)
    (hi : ¬ (IsReply ctrlCmdDataAck i ∧ g.state = .waitDataAck)) (hfx : dataFrames fx = []) :
    recordAck h g i fx g' = h := by
  unfold recordAck
  rw [if_neg fun hs' => hs'.2 (hs hs'.1), if_neg hi, hfx]
  rfl

theorem recordAck_ack (hs : g'.state ≠ .sendRequest) (hg : g.state = .waitDataAck)
    (hi : IsReply ctrlCmdDataAck i) (hfx : dataFrames fx = []) :
    recordAck h g i fx g' = { last := h.last, bytes := h.bytes ++ h.last } := by
  unfold recordAck
  rw [if_neg fun hs' => hs hs'.1, if_pos ⟨hi, hg⟩, hfx]
  rfl

/-- With the payload that waits for it, an ACK brings the bytes up to the new sent length. -/
theorem AckInv.length_acked (ha : AckInv g h) (hs : g.state = .waitDataAck) :
    (h.bytes ++ h.last).length = (ctrlOtaAdvanceData g).sentLength.toNat := by
  rw [List.length_append, ha.bytes (.inr (.inl hs)), ha.last hs]
  exact (toNat_advance ha.ctrl).symm

/-- **Every move keeps the invariant.** -/
theorem AckInv.move (ha : AckInv g h) (hm : CtrlMove g e i g' fx) :
    AckInv g' (recordAck h g i fx g') := by
  have hctrl := ha.ctrl.move hm
  have hwait : ∀ {j : CtrlEvent}, g.state ≠ .waitDataAck →
      ¬ (IsReply ctrlCmdDataAck j ∧ g.state = .waitDataAck) := fun hne hj => hne hj.2
  cases hm with
  | stay i hp =>
    rw [recordAck_quiet id hp.ack rfl]
    exact ha
  | failed now hs =>
    rw [recordAck_quiet id (hwait (by simp [hs])) rfl]
    exact ha
  | request now hs =>
    rw [recordAck_quiet (fun _ => hs) (hwait (by simp [hs])) rfl]
    exact ⟨hctrl, ha.start, ha.bytes, ha.last⟩
  | finish now hs hl =>
    rw [recordAck_quiet (by simp) (hwait (by simp [hs])) rfl]
    exact ⟨hctrl, by simp, fun _ => ha.bytes (.inl hs), by simp⟩
  | send now hs hne =>
    have hrec : recordAck h g (.tick now) [ctrlOtaSendDataFrame g e]
        { g with state := .waitDataAck, lastRequestTime := now } =
        { last := chunkBytes g e, bytes := h.bytes } := by
      unfold recordAck
      rw [if_neg (by simp), if_neg (hwait (by simp [hs])), dataFrames_data]
      simp
    rw [hrec]
    exact ⟨hctrl, by simp, fun _ => ha.bytes (.inl hs), fun _ => length_chunkBytes g e⟩
  | timeout now hs ht =>
    have hno : ¬ (IsReply ctrlCmdDataAck (.tick now) ∧ g.state = .waitDataAck) := fun hj => hj.1
    rw [recordAck_quiet (by simp) hno rfl]
    exact ⟨hctrl, by simp, fun _ => ha.bytes (.inr (.inl hs)), by simp⟩
  | restart now hs =>
    have hrec : recordAck h g (.tick now) [] { g with
        state := .sendRequest, sentLength := 0, eepromReadAddr := 0, lastRequestTime := now }
        = {} :=
      if_pos ⟨rfl, by simp [hs]⟩
    rw [hrec]
    exact ⟨hctrl, fun _ => rfl, by simp, by simp⟩
  | confirm now hs =>
    rw [recordAck_quiet (by simp) (hwait (by simp [hs])) rfl]
    exact ⟨hctrl, fun _ => ha.start (.inl hs), by simp, by simp⟩
  | erased now hs =>
    have hne : g.state ≠ .waitDataAck := by rcases hs with hs | hs <;> simp [hs]
    rw [recordAck_quiet (by simp) (hwait hne) rfl]
    refine ⟨hctrl, by simp, fun _ => ?_, by simp⟩
    rw [ha.start hs, ha.ctrl.start hs]
    rfl
  | ackLast now hs hl | ackMore now hs hl =>
    have hack : IsReply ctrlCmdDataAck (.reply ctrlCmdDataAck now) := rfl
    rw [recordAck_ack (by simp) hs hack rfl]
    exact ⟨hctrl, by simp, fun _ => ha.length_acked hs, by simp⟩
  | success now =>
    rw [recordAck_quiet (by simp) (fun hj => absurd ((isReply_reply _ _ _).mp hj.1) (by decide))
      (by simp)]
    exact ⟨hctrl, by simp, by simp, by simp⟩
  | crcFail now =>
    rw [recordAck_quiet (by simp)
      (fun hj => absurd ((isReply_reply _ _ _).mp hj.1) (by decide)) rfl]
    exact ⟨hctrl, by simp, by simp, by simp⟩
  | refused cmd now hc =>
    have hcmd : cmd ≠ ctrlCmdDataAck := by rcases hc with ⟨rfl, -⟩ | rfl <;> decide
    rw [recordAck_quiet (by simp) (fun hj => hcmd ((isReply_reply _ _ _).mp hj.1)) rfl]
    exact ⟨hctrl, by simp, by simp, by simp⟩

theorem ackInv_step (s : Device × Acked) (p : PowerEvent) (ha : AckInv s.1.ctrl s.2) :
    AckInv (ackStep s p).1.1.ctrl (ackStep s p).1.2 := by
  cases p with
  | run x =>
    cases x with
    | app f => exact ha
    | ctrl i => exact ha.move (ctrlHandle_move s.1.ctrl s.1.ee i)
  | cut x k => exact ackInv_boot _

/-! ### Reports -/

theorem reports_move_iff (hm : CtrlMove g e i g' fx) :
    ReportsSuccess fx ↔ IsReply ctrlCmdCrcSuccess i := by
  have hneg : ¬ ReportsSuccess fx → ¬ IsReply ctrlCmdCrcSuccess i →
      (ReportsSuccess fx ↔ IsReply ctrlCmdCrcSuccess i) := fun h1 h2 => iff_of_false h1 h2
  cases hm with
  | stay i hp => exact hneg (by simp [ReportsSuccess]) hp.success
  | success now => exact iff_of_true List.mem_cons_self rfl
  | refused cmd now hc =>
    have hcmd : cmd ≠ ctrlCmdCrcSuccess := by rcases hc with ⟨rfl, -⟩ | rfl <;> decide
    exact hneg (by decide) hcmd
  | request | finish | send | timeout | restart =>
    refine hneg ?_ (isReply_tick _ _)
    simp [ReportsSuccess, ctrlOtaNotifyResult, ctrlOtaSendRequest_eq, ctrlOtaSendDataFrame_eq]
  | failed => exact hneg (by decide) (isReply_tick _ _)
  | confirm | erased | ackLast | ackMore | crcFail =>
    refine hneg ?_ fun hi => absurd ((isReply_reply _ _ _).mp hi) (by decide)
    simp [ReportsSuccess, ctrlOtaNotifyResult, ctrlOtaNotifyProgress, ctrlOtaV3Progress,
      ctrlOtaV3Result, ctrlOtaResultOk, ctrlOtaResultError]

theorem not_reports_app {c c' : OtaContext} {f : AppFrame} (hm : OtaMove c f c' fx) :
    ¬ ReportsSuccess fx := by
  cases hm <;>
    simp [ReportsSuccess, ctrlOtaNotifyResult, writeFlag, ctrlOtaSetotaReadyflag, eepromWrite,
      otaSendStartResponse, otaSendFlashEraseDone, otaSendDataAck, otaSendPackageRetryAck,
      otaSendEraseRetryAck, otaFrameStartRspSize, otaFrameFlashEraseRspSize, otaFrameDataAckSize,
      v3FrameHead0, ctrlOtaV3Result, otaCmdStart, otaCmdData, otaCmdFlashEraseDone]

theorem reports_effects_iff (d : Device) (x : Stimulus) :
    ReportsSuccess (effects d x) ↔ IsSuccessReply (.run x) := by
  cases x with
  | app f => exact iff_of_false (not_reports_app (otaHandle_move d.ota f)) id
  | ctrl i => exact reports_move_iff (ctrlHandle_move d.ctrl d.ee i)

theorem success_move (hm : CtrlMove g e i g' fx) (hi : IsReply ctrlCmdCrcSuccess i) :
    g' = { g with state := .complete } ∧
      fx = ctrlOtaNotifyResult ctrlOtaResultOk :: writeFlag ctrlOtaFlagIdle := by
  cases hm with
  | stay i hp => exact absurd hi hp.success
  | success now => exact ⟨rfl, rfl⟩
  | refused cmd now hc =>
    have hcmd : cmd ≠ ctrlCmdCrcSuccess := by rcases hc with ⟨rfl, -⟩ | rfl <;> decide
    exact absurd ((isReply_reply _ _ _).mp hi) hcmd
  | failed | request | finish | send | timeout | restart => exact absurd hi (isReply_tick _ _)
  | confirm | erased | ackLast | ackMore | crcFail =>
    exact absurd ((isReply_reply _ _ _).mp hi) (by decide)

/-- A success is reported exactly on a success reply, also when the power is cut in its handler. -/
theorem reports_iff (d : Device) (p : PowerEvent) :
    ReportsSuccess (powerStep d p).2 ↔ IsSuccessReply p := by
  cases p with
  | run x => exact reports_effects_iff d x
  | cut x k =>
    constructor
    · intro hr
      have hmem := (upToWrite_initial (effects d x) k).subset hr
      have hx := (reports_effects_iff d x).mp hmem
      cases x <;> exact hx
    · intro hi
      cases x with
      | app f => exact absurd hi id
      | ctrl i =>
        obtain ⟨-, hfx⟩ := success_move (ctrlHandle_move d.ctrl d.ee i) hi
        have heff : effects d (.ctrl i) =
            ctrlOtaNotifyResult ctrlOtaResultOk :: writeFlag ctrlOtaFlagIdle := hfx
        unfold ReportsSuccess
        simp only [powerStep, powerEffects, heff]
        exact List.mem_cons_self

theorem justified_iff {s : Device × Acked} (ha : AckInv s.1.ctrl s.2) (p : PowerEvent) :
    SuccessJustified s p ↔ SuccessExpected s.1 p := by
  constructor
  · intro hj hi
    exact (hj ((reports_iff s.1 p).mpr hi)).1
  · intro hx hr
    have hi := (reports_iff s.1 p).mp hr
    have hs := hx hi
    have hdone := ha.ctrl.done hs
    have hbytes := ha.bytes (.inr (.inr hs))
    rw [hdone] at hbytes
    refine ⟨hs, hdone, hbytes, ?_⟩
    rintro x rfl
    cases x with
    | app f => exact absurd hi id
    | ctrl i =>
      have hm := ctrlHandle_move s.1.ctrl s.1.ee i
      have hreply : IsReply ctrlCmdCrcSuccess i := hi
      obtain ⟨hg, -⟩ := success_move hm hreply
      have hee := applyEffects_move hm
      rw [if_pos hreply] at hee
      refine ⟨?_, ?_⟩
      · simp only [powerStep, handle]
        rw [hee, flagByte_store_flag]
      · simp only [powerStep, handle]
        rw [hg]

/-- **Success is reported only after a complete, acknowledged transfer exactly when every success
reply arrives in `WAIT_COMPLETE`.** -/
theorem success_iff (e : Eeprom) (ps : List PowerEvent) :
    EachStep ackStep SuccessJustified (boot e, {}) ps ↔
      EachStep powerStep SuccessExpected (boot e) ps := by
  have hboot : AckInv (boot e).ctrl {} := ackInv_boot e
  rw [← eachStep_withHistory (boot e, ({} : Acked)) ps]
  exact eachStep_congr ackInv_step (fun s p ha => justified_iff ha p) hboot ps

/-- **A stray success reply is believed**: the upload has not even been requested. -/
theorem not_justified_stray :
    ¬ ∀ e ps, EachStep ackStep SuccessJustified (boot e, {}) ps := by
  intro hall
  have h := (hall sampleEeprom [.run (.ctrl (.reply 0x0C 5))]).1 (by decide)
  exact absurd h.1 (by decide)

end BleHidUart.Firmware.Success
