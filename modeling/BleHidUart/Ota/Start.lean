import BleHidUart.Ota.Session

/-!
# Start requests

A start request is taken in the state `IDLE` only. One that is accepted sets every field of the
context, one that is refused resets the context, so nothing of an earlier session is left in either
case (`isolation`). The ready flag is cleared before the request is validated, hence a refused
request leaves the EEPROM as it is exactly when there was no flag to clear (`refused_keeps_iff`).
-/

namespace BleHidUart.Ota.Start

open BleHidUart.Board BleHidUart.CtrlOta.Metadata BleHidUart.Lib.Memory BleHidUart.Lib.Run
open BleHidUart.Ota.Handlers BleHidUart.Ota.Moves BleHidUart.Ota.Session

/-! ### The context does not depend on the EEPROM -/

theorem outs_otaStep (s : OtaContext × Eeprom) (fs : List AppFrame) :
    outs otaStep s fs = outs otaHandle s.1 fs := by
  induction fs generalizing s with
  | nil => rfl
  | cons f fs ih =>
    rw [outs_cons, outs_cons, ih]
    rfl

theorem final_otaStep (s : OtaContext × Eeprom) (fs : List AppFrame) :
    final otaStep s fs = (final otaHandle s.1 fs, applyEffects s.2 (outs otaHandle s.1 fs)) := by
  induction fs generalizing s with
  | nil => rfl
  | cons f fs ih =>
    rw [final_cons, final_cons, outs_cons, applyEffects_append, ih]
    rfl

/-! ### The start request -/

theorem opened_eq (c c' : OtaContext) (len crc : UInt32) : opened c len crc = opened c' len crc :=
  rfl

theorem opens_congr {c c' : OtaContext} (hc : c.state = .idle) (hc' : c'.state = .idle)
    (f : StartFrame) : Opens c f ↔ Opens c' f :=
  ⟨fun h => ⟨hc', h.pos, h.le⟩, fun h => ⟨hc, h.pos, h.le⟩⟩

theorem otaHandle_start {c : OtaContext} (hc : c.state = .idle) (f : StartFrame) :
    otaHandle c (.start f) =
      if Opens c f then (opened c (startLen f) (startCrc f),
        writeFlag 0 ++ [otaSendStartResponse otaResultSuccess,
        otaSendFlashEraseDone otaResultSuccess])
      else (otaReset, writeFlag 0 ++ [otaSendStartResponse otaResultFail]) := by
  have hm := otaHandle_move c (.start f)
  revert hm
  generalize otaHandle c (.start f) = r
  intro hm
  obtain ⟨c', fx⟩ := r
  cases hm with
  | startIgnored _ hs => exact absurd hc hs
  | startRefused _ _ hno => exact (if_neg hno).symm
  | startAccepted _ ho => exact (if_pos ho).symm

/-- **In the state `IDLE` the other fields do not matter.** -/
theorem otaHandle_start_congr {c c' : OtaContext} (hc : c.state = .idle) (hc' : c'.state = .idle)
    (f : StartFrame) : otaHandle c (.start f) = otaHandle c' (.start f) := by
  rw [otaHandle_start hc, otaHandle_start hc', opened_eq c c']
  exact if_congr (opens_congr hc hc' f) rfl rfl

/-- A start request clears the flag first, whatever is decided. -/
theorem otaStep_start_eeprom {s : OtaContext × Eeprom} (hs : s.1.state = .idle) (f : StartFrame) :
    (otaStep s (.start f)).1.2 = store s.2 flagAddr [0] := by
  have hstep : (otaStep s (.start f)).1.2 = applyEffects s.2 (otaHandle s.1 (.start f)).2 := rfl
  rw [hstep, otaHandle_start hs]
  split_ifs
  · rw [applyEffects_append, applyEffects_writeFlag]
    rfl
  · rw [applyEffects_append, applyEffects_writeFlag]
    rfl

/-! ### Isolation of sessions -/

/-- Two EEPROMs have the same flag, and with the flag set the same metadata. -/
structure SamePage (e e' : Eeprom) : Prop where
  flag : flagByte e = flagByte e'
  ready : flagByte e = ctrlOtaFlagReady → storedLength e = storedLength e' ∧
    storedCrc e = storedCrc e'

/-- The context is the same, and so is what the page says. -/
structure Twin (s t : OtaContext × Eeprom) : Prop where
  ctx : s.1 = t.1
  left : OtaInv s.1 s.2
  right : OtaInv t.1 t.2
  page : SamePage s.2 t.2

theorem samePage_store_flag (e e' : Eeprom) :
    SamePage (store e flagAddr [0]) (store e' flagAddr [0]) where
  flag := by rw [flagByte_store_flag, flagByte_store_flag]
  ready := by
    intro h
    rw [flagByte_store_flag] at h
    exact absurd h (by decide)

theorem samePage_store_record (e e' : Eeprom) (len crc : UInt32) :
    SamePage (store e flagAddr (readyRecord len crc))
    (store e' flagAddr (readyRecord len crc)) where
  flag := by rw [flagByte_store_record, flagByte_store_record]
  ready := by
    intro _
    rw [storedLength_store_record, storedLength_store_record, storedCrc_store_record,
      storedCrc_store_record]
    exact ⟨rfl, rfl⟩

theorem SamePage.below {e e' : Eeprom} (h : SamePage e e') {a : ℕ} {bs : List UInt8}
    (hle : a + bs.length ≤ flagAddr) : SamePage (store e a bs) (store e' a bs) := by
  obtain ⟨hf, hl, hc⟩ := stored_store_of_le (e := e) hle
  obtain ⟨hf', hl', hc'⟩ := stored_store_of_le (e := e') hle
  refine ⟨by rw [hf, hf', h.flag], ?_⟩
  rw [hf, hl, hl', hc, hc']
  exact h.ready

theorem samePage_move {c c' : OtaContext} {e e' : Eeprom} {f : AppFrame} {fx : List Effect}
    (hm : OtaMove c f c' fx) (h : OtaInv c e) (h' : OtaInv c e') (hp : SamePage e e') :
    SamePage (applyEffects e fx) (applyEffects e' fx) := by
  have hstored : ∀ d : DataFrame, c.receivedLength.toNat + (stored c d).length ≤ flagAddr :=
    fun d => (received_add_stored_le h d).trans h.length_le
  cases hm with
  | startIgnored | dataIgnored | dataResend | dataAborted | packageRetried | packageRetryRefused
  | eraseRetried | eraseRetryRefused => exact hp
  | startRefused | startAccepted =>
    rw [applyEffects_append, applyEffects_append, applyEffects_writeFlag, applyEffects_writeFlag]
    exact samePage_store_flag e e'
  | dataContinued f | dataMismatched f =>
    rw [applyEffects_append, applyEffects_append, applyEffects_stored h, applyEffects_stored h']
    exact hp.below (hstored f)
  | dataCommitted f =>
    rw [applyEffects_append, applyEffects_append, applyEffects_cons, applyEffects_cons,
      applyEffect_dataAck, applyEffect_dataAck, applyEffects_readyflag, applyEffects_readyflag]
    exact samePage_store_record _ _ _ _

theorem twin_step {s t : OtaContext × Eeprom} (f : AppFrame) (h : Twin s t) :
    Twin (otaStep s f).1 (otaStep t f).1 := by
  obtain ⟨c, e⟩ := s
  obtain ⟨c', e'⟩ := t
  obtain rfl : c = c' := h.ctx
  exact ⟨rfl, otaInv_step _ f h.left, otaInv_step _ f h.right,
    samePage_move (otaHandle_move c f) h.left h.right h.page⟩

theorem twin_run {s t : OtaContext × Eeprom} (h : Twin s t) (fs : List AppFrame) :
    Twin (final otaStep s fs) (final otaStep t fs) := by
  induction fs generalizing s t with
  | nil => exact h
  | cons f fs ih => exact ih (twin_step f h)

/-- A start request makes twins of any two idle states. -/
theorem twin_start {s t : OtaContext × Eeprom} (hs : OtaInv s.1 s.2) (ht : OtaInv t.1 t.2)
    (hi : s.1.state = .idle) (hj : t.1.state = .idle) (f : StartFrame) :
    Twin (otaStep s (.start f)).1 (otaStep t (.start f)).1 where
  ctx := show (otaHandle s.1 (.start f)).1 = (otaHandle t.1 (.start f)).1 by
    rw [otaHandle_start_congr hi hj f]
  left := otaInv_step s _ hs
  right := otaInv_step t _ ht
  page := by
    rw [otaStep_start_eeprom hi, otaStep_start_eeprom hj]
    exact samePage_store_flag _ _

/-- **Session isolation.** From any two reachable idle states a start request and the frames after
it have the same effects, notifications and page writes, in the same order, and leave the same
context, the same flag and, with the flag set, the same metadata. -/
theorem isolation (e₁ e₂ : Eeprom) (gs₁ gs₂ : List AppFrame)
    (h₁ : (final otaStep (otaInit, e₁) gs₁).1.state = .idle)
    (h₂ : (final otaStep (otaInit, e₂) gs₂).1.state = .idle) (f : StartFrame) (fs : List AppFrame) :
    let s₁ := final otaStep (otaInit, e₁) gs₁
    let s₂ := final otaStep (otaInit, e₂) gs₂
    let t₁ := final otaStep s₁ (.start f :: fs)
    let t₂ := final otaStep s₂ (.start f :: fs)
    outs otaStep s₁ (.start f :: fs) = outs otaStep s₂ (.start f :: fs) ∧ t₁.1 = t₂.1 ∧
      flagByte t₁.2 = flagByte t₂.2 ∧ (flagByte t₁.2 = ctrlOtaFlagReady →
        storedLength t₁.2 = storedLength t₂.2 ∧ storedCrc t₁.2 = storedCrc t₂.2) := by
  intro s₁ s₂ t₁ t₂
  have hstart : otaHandle s₁.1 (.start f) = otaHandle s₂.1 (.start f) :=
    otaHandle_start_congr h₁ h₂ f
  have htwin : Twin t₁ t₂ :=
    twin_run (twin_start (otaInv_run e₁ gs₁) (otaInv_run e₂ gs₂) h₁ h₂ f) fs
  refine ⟨?_, htwin.ctx, htwin.page.flag, htwin.page.ready⟩
  rw [outs_otaStep, outs_otaStep, outs_cons, outs_cons, hstart]

/-- An erase retry the handler takes. -/
def eraseRequest : EraseRetryFrame := ⟨[0x53, 0x35, 0x0C, 0x05, 0x09], rfl, le_rfl, le_rfl⟩

/-- An erase retry in the middle of a session leaves nothing behind for the next one. -/
theorem isolation_eraseRetry :
    outs otaStep (final otaStep (otaInit, fun _ => 0) []) [.start (startOf 4), .data onlyPacket] =
      outs otaStep (final otaStep (otaInit, fun _ => 0xFF) [.start (startOf 8),
      .eraseRetry eraseRequest])
        [.start (startOf 4), .data onlyPacket] :=
  (isolation (fun _ => 0) (fun _ => 0xFF) [] [.start (startOf 8), .eraseRetry eraseRequest] rfl
    (by decide) (startOf 4) [.data onlyPacket]).1

/-! ### Refused requests -/

theorem refused_iff (c : OtaContext) (f : StartFrame) :
    otaSendStartResponse otaResultFail ∈ (otaHandle c (.start f)).2 ↔
      c.state = .idle ∧ (startLen f = 0 ∨ ctrlOtaFlagAddr < startLen f) := by
  by_cases hc : c.state = .idle
  · have hfail : otaSendStartResponse otaResultFail ≠ otaSendStartResponse otaResultSuccess := by
      decide
    have herase : otaSendStartResponse otaResultFail ≠ otaSendFlashEraseDone otaResultSuccess := by
      decide
    have hflag : otaSendStartResponse otaResultFail ∉ writeFlag 0 := by
      simp [writeFlag, eepromWrite, otaSendStartResponse]
    have hopens : Opens c f ↔ ¬ (startLen f = 0 ∨ ctrlOtaFlagAddr < startLen f) := by
      rw [not_or, UInt32.not_lt]
      exact ⟨fun h => ⟨h.pos, h.le⟩, fun h => ⟨hc, h.1, h.2⟩⟩
    rw [otaHandle_start hc, and_iff_right hc]
    split_ifs with ho
    · refine iff_of_false ?_ (hopens.mp ho)
      simp [hfail, herase, hflag]
    · refine iff_of_true ?_ (not_not.mp fun h => ho (hopens.mpr h))
      simp
  · have hstay : otaHandle c (.start f) = (c, []) := if_pos hc
    rw [hstay]
    exact iff_of_false List.not_mem_nil fun h => hc h.1

/-- **A refused start request leaves the EEPROM as it is exactly when the flag was clear**: the flag
is cleared before the length is looked at. -/
theorem refused_keeps_iff (e : Eeprom) (gs : List AppFrame) (f : StartFrame)
    (hfail : otaSendStartResponse otaResultFail ∈
      (otaStep (final otaStep (otaInit, e) gs) (.start f)).2) :
    (otaStep (final otaStep (otaInit, e) gs) (.start f)).1.2 = (final otaStep (otaInit, e) gs).2 ↔
      flagByte (final otaStep (otaInit, e) gs).2 = 0 := by
  have hidle := ((refused_iff _ f).mp hfail).1
  rw [otaStep_start_eeprom hidle]
  generalize (final otaStep (otaInit, e) gs).2 = e'
  constructor
  · intro h
    rw [← h, flagByte_store_flag]
  · intro h
    rw [store_cons, store_nil, ← h]
    exact Function.update_eq_self _ _

/-- With an erased device there is no flag to clear. -/
theorem refused_keeps_blank :
    (otaStep (final otaStep (otaInit, fun _ => 0) []) (.start (startOf 0))).1.2 =
      (final otaStep (otaInit, fun _ => 0) []).2 :=
  (refused_keeps_iff (fun _ => 0) [] (startOf 0) (by decide)).mpr (by decide)

/-- **A refused request can cancel an upgrade**: an image waits for the controller, a start request
with the length `0` is refused, and the flag is gone. -/
theorem refused_clears_ready : ¬ ∀ (e : Eeprom) (gs : List AppFrame) (f : StartFrame),
    (final otaStep (otaInit, e) gs).1.state = .idle →
    otaSendStartResponse otaResultFail ∈ (otaStep (final otaStep (otaInit, e) gs) (.start f)).2 →
    (otaStep (final otaStep (otaInit, e) gs) (.start f)).1.2 =
      (final otaStep (otaInit, e) gs).2 := by
  intro hall
  have h := hall (store (fun _ => 0) flagAddr [ctrlOtaFlagReady]) [] (startOf 0) rfl (by decide)
  have hflag := congrArg flagByte h
  rw [otaStep_start_eeprom rfl, flagByte_store_flag] at hflag
  exact absurd hflag (by rw [final_nil, flagByte_store_flag]; decide)

end BleHidUart.Ota.Start
