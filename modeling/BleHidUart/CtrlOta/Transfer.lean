import BleHidUart.CtrlOta.Moves
import BleHidUart.Lib.Run

/-!
# The invariant of an upload, and what is sent in one

`CtrlInv` holds of the context in every run from any boot: the read address follows the sent length,
which never passes the file length. `Upload` is the history of an upload: the data frames since the
machine last entered `SEND_REQUEST`, each with a mark if it is the retransmission after an ACK
timeout. `UploadInv` says what these frames carry in each state.
-/

namespace BleHidUart.CtrlOta.Transfer

open BleHidUart.Board BleHidUart.Eeprom BleHidUart.CtrlOta.Metadata BleHidUart.CtrlOta.Machine
open BleHidUart.CtrlOta.Moves BleHidUart.Lib.Memory BleHidUart.Lib.Run BleHidUart.Lib.Word

/-! ### The context -/

/-- **The invariant** of the context. -/
structure CtrlInv (g : CtrlOtaCtx) : Prop where
  sent_le : g.sentLength.toNat ≤ g.fileLength.toNat
  addr : g.eepromReadAddr = g.sentLength
  start : g.state = .sendRequest ∨ g.state = .waitConfirm → g.sentLength = 0
  pending : g.state = .waitDataAck → g.sentLength ≠ g.fileLength
  done : g.state = .waitComplete → g.sentLength = g.fileLength

theorem ctrlOtaInit_ready {e : Eeprom} (h : flagByte e = ctrlOtaFlagReady) : ctrlOtaInit e =
    { state := .sendRequest, fileLength := storedLength e, fileCrc := storedCrc e } := by
  have hflag : byteAt (eepromRead e ctrlOtaFlagAddr 1) 0 = flagByte e := by
    rw [eepromRead_eq_slice (by simp [flagAddr])]
    rfl
  have hmeta : eepromRead e ctrlOtaMetaFileLen 8 = slice e (flagAddr + 1) 8 := by
    rw [eepromRead_eq_slice (by simp [toNat_ctrlOtaMetaFileLen, flagAddr]),
      toNat_ctrlOtaMetaFileLen]
  unfold ctrlOtaInit
  rw [hflag, hmeta, if_neg (not_not.mpr h)]
  rfl

theorem ctrlOtaInit_idle {e : Eeprom} (h : flagByte e ≠ ctrlOtaFlagReady) : ctrlOtaInit e = {} := by
  have hflag : byteAt (eepromRead e ctrlOtaFlagAddr 1) 0 = flagByte e := by
    rw [eepromRead_eq_slice (by simp [flagAddr])]
    rfl
  unfold ctrlOtaInit
  rw [hflag, if_pos h]

theorem ctrlInv_init (e : Eeprom) : CtrlInv (ctrlOtaInit e) := by
  by_cases h : flagByte e = ctrlOtaFlagReady
  · rw [ctrlOtaInit_ready h]
    exact ⟨Nat.zero_le _, rfl, fun _ => rfl, by simp, by simp⟩
  · rw [ctrlOtaInit_idle h]
    exact ⟨le_rfl, rfl, fun _ => rfl, by simp, by simp⟩

section Chunk
variable {g : CtrlOtaCtx} (h : CtrlInv g)
include h

theorem toNat_ctrlOtaChunk :
    (ctrlOtaChunk g).toNat = min 200 (g.fileLength.toNat - g.sentLength.toNat) := by
  have hle := h.sent_le
  have hsub : (g.fileLength - g.sentLength).toNat = g.fileLength.toNat - g.sentLength.toNat :=
    toNat_sub_of_le hle
  unfold ctrlOtaChunk
  by_cases hc : ctrlDataMaxPayload.toUInt32 < g.fileLength - g.sentLength
  · simp only [if_pos hc]
    rw [UInt32.lt_iff_toNat_lt, hsub] at hc
    simp only [ctrlDataMaxPayload, UInt16.toNat_toUInt32, UInt16.reduceToNat] at hc ⊢
    omega
  · simp only [if_neg hc]
    rw [UInt32.lt_iff_toNat_lt, hsub] at hc
    simp only [ctrlDataMaxPayload, UInt16.toNat_toUInt32, UInt16.reduceToNat] at hc
    rw [UInt32.toNat_toUInt16, hsub]
    omega

theorem toNat_advance : (ctrlOtaAdvanceData g).sentLength.toNat =
    g.sentLength.toNat + (ctrlOtaChunk g).toNat := by
  have hle := h.sent_le
  have hchunk := toNat_ctrlOtaChunk h
  have hlt := UInt32.toNat_lt g.fileLength
  have hadd : g.sentLength.toNat + (ctrlOtaChunk g).toUInt32.toNat < 2 ^ 32 := by
    rw [UInt16.toNat_toUInt32]
    omega
  rw [ctrlOtaAdvanceData, UInt32.toNat_add, UInt16.toNat_toUInt32, Nat.mod_eq_of_lt]
  rwa [UInt16.toNat_toUInt32] at hadd

theorem CtrlInv.advance_le : (ctrlOtaAdvanceData g).sentLength.toNat ≤ g.fileLength.toNat := by
  have hle := h.sent_le
  rw [toNat_advance h, toNat_ctrlOtaChunk h]
  omega

theorem CtrlInv.advance_addr :
    (ctrlOtaAdvanceData g).eepromReadAddr = (ctrlOtaAdvanceData g).sentLength := by
  simp only [ctrlOtaAdvanceData, h.addr]

theorem CtrlInv.sent_lt (hne : g.sentLength ≠ g.fileLength) :
    g.sentLength.toNat < g.fileLength.toNat :=
  lt_of_le_of_ne h.sent_le fun he => hne (UInt32.toNat_inj.mp he)

theorem chunk_pos (hne : g.sentLength ≠ g.fileLength) : 0 < (ctrlOtaChunk g).toNat := by
  have hlt := h.sent_lt hne
  rw [toNat_ctrlOtaChunk h]
  omega

end Chunk

variable {g g' : CtrlOtaCtx} {e : Eeprom} {i : CtrlEvent} {fx : List Effect}

/-- The announced file does not change after the boot. -/
theorem move_file (hm : CtrlMove g e i g' fx) :
    g'.fileLength = g.fileLength ∧ g'.fileCrc = g.fileCrc := by
  cases hm <;> exact ⟨rfl, rfl⟩

/-- **Every move keeps the invariant.** -/
theorem CtrlInv.move (h : CtrlInv g) (hm : CtrlMove g e i g' fx) : CtrlInv g' := by
  have hstart := h.start
  cases hm with
  | stay | failed => exact h
  | request now hs => exact ⟨h.1, h.2, h.3, h.4, h.5⟩
  | finish now hs hl => exact ⟨h.1, h.2, by simp, by simp, fun _ => hl⟩
  | send now hs hne => exact ⟨h.1, h.2, by simp, fun _ => hne, by simp⟩
  | timeout now hs ht => exact ⟨h.1, h.2, by simp, by simp, by simp⟩
  | restart now hs => exact ⟨Nat.zero_le _, rfl, fun _ => rfl, by simp, by simp⟩
  | confirm now hs => exact ⟨h.1, h.2, fun _ => h.3 (.inl hs), by simp, by simp⟩
  | erased now hs => exact ⟨h.1, h.2, by simp, by simp, by simp⟩
  | ackLast now hs hl => exact ⟨h.advance_le, h.advance_addr, by simp, by simp, fun _ => hl⟩
  | ackMore now hs hl => exact ⟨h.advance_le, h.advance_addr, by simp, by simp, by simp⟩
  | success now | crcFail now | refused cmd now _ => exact ⟨h.1, h.2, by simp, by simp, by simp⟩

/-! ### Payloads -/

theorem length_chunkBytes (g : CtrlOtaCtx) (e : Eeprom) :
    (chunkBytes g e).length = (ctrlOtaChunk g).toNat := length_eepromRead _ _ _

section Payload
variable (h : CtrlInv g) (hlen : g.fileLength.toNat ≤ flagAddr)
include h hlen

theorem chunkBytes_eq (e : Eeprom) :
    chunkBytes g e = slice e g.sentLength.toNat (ctrlOtaChunk g).toNat := by
  have hle := h.sent_le
  have hchunk := toNat_ctrlOtaChunk h
  have hpage := flagAddr_add_page
  rw [chunkBytes, h.addr, eepromRead_eq_slice (by omega)]

theorem slice_advance (e : Eeprom) :
    slice e 0 (ctrlOtaAdvanceData g).sentLength.toNat =
      slice e 0 g.sentLength.toNat ++ chunkBytes g e := by
  rw [toNat_advance h, slice_add, Nat.zero_add, chunkBytes_eq h hlen]

end Payload

/-! ### The history of an upload -/

/-- The data frames since the machine last entered `SEND_REQUEST`, each with a mark if it is a
retransmission, and whether the ACK timeout fired after the last of them. -/
structure Upload where
  frames : List (Bool × List UInt8) := []
  timedOut : Bool := false

/-- What an event adds to the history. -/
def recordUpload (t : Upload) (s : CtrlOtaCtx × Eeprom) (i : CtrlEvent) (fx : List Effect)
    (s' : CtrlOtaCtx × Eeprom) : Upload :=
  if s'.1.state = .sendRequest ∧ s.1.state ≠ .sendRequest then {}
  else
    { frames := t.frames ++ (dataFrames fx).map fun frame => (t.timedOut, frame)
      timedOut := if TimesOut s.1 i then true else t.timedOut && (dataFrames fx).isEmpty }

/-- The controller side with its history. -/
abbrev uploadStep : (CtrlOtaCtx × Eeprom) × Upload → CtrlEvent →
    ((CtrlOtaCtx × Eeprom) × Upload) × List Effect :=
  withHistory ctrlStep recordUpload

/-- The payloads of the frames that are not retransmissions. -/
def firstPayloads (frames : List (Bool × List UInt8)) : List UInt8 :=
  ((frames.filter fun p => !p.1).map fun p => payload p.2).flatten

/-- Each retransmission is a copy of the frame before it. -/
def Copies (frames : List (Bool × List UInt8)) : Prop :=
  ∀ xs frame ys, frames = xs ++ (true, frame) :: ys → ∃ b, xs.getLast? = some (b, frame)

@[simp] theorem firstPayloads_nil : firstPayloads [] = [] := rfl

theorem firstPayloads_resent (frames : List (Bool × List UInt8)) (frame : List UInt8) :
    firstPayloads (frames ++ [(true, frame)]) = firstPayloads frames := by
  simp [firstPayloads]

theorem firstPayloads_sent (frames : List (Bool × List UInt8)) (frame : List UInt8) :
    firstPayloads (frames ++ [(false, frame)]) = firstPayloads frames ++ payload frame := by
  simp [firstPayloads]

theorem copies_nil : Copies [] := by
  intro xs frame ys h
  simp at h

theorem Copies.snoc {frames : List (Bool × List UInt8)} (h : Copies frames) {b : Bool}
    {frame : List UInt8} (hb : b = true → ∃ b', frames.getLast? = some (b', frame)) :
    Copies (frames ++ [(b, frame)]) := by
  intro xs f ys hs
  rcases List.eq_nil_or_concat ys with rfl | ⟨zs, z, rfl⟩
  · obtain ⟨rfl, hlast⟩ := List.append_inj' hs rfl
    obtain ⟨rfl, rfl⟩ := Prod.mk.inj (List.cons.inj hlast).1
    exact hb rfl
  · rw [List.concat_eq_append, ← List.cons_append, ← List.append_assoc] at hs
    exact h xs f zs (List.append_inj' hs rfl).1

/-- **What the frames of the upload carry**, state by state. -/
structure UploadInv (s : CtrlOtaCtx × Eeprom) (t : Upload) : Prop where
  copies : Copies t.frames
  start : s.1.state = .sendRequest ∨ s.1.state = .waitConfirm → t.frames = [] ∧ t.timedOut = false
  next : s.1.state = .sendData → t.timedOut = false →
    firstPayloads t.frames = slice s.2 0 s.1.sentLength.toNat
  again : s.1.state = .sendData → t.timedOut = true → s.1.sentLength ≠ s.1.fileLength ∧
    firstPayloads t.frames = slice s.2 0 s.1.sentLength.toNat ++ chunkBytes s.1 s.2 ∧
    ∃ b, t.frames.getLast? = some (b, dataFrame s.1 s.2)
  pending : s.1.state = .waitDataAck → t.timedOut = false ∧
    firstPayloads t.frames = slice s.2 0 s.1.sentLength.toNat ++ chunkBytes s.1 s.2 ∧
    ∃ b, t.frames.getLast? = some (b, dataFrame s.1 s.2)
  done : s.1.state = .waitComplete →
    firstPayloads t.frames = slice s.2 0 s.1.fileLength.toNat

theorem UploadInv.of_state {s : CtrlOtaCtx × Eeprom} {t : Upload} (hc : Copies t.frames)
    (hs : s.1.state = .complete ∨ s.1.state = .error ∨ s.1.state = .filed ∨ s.1.state = .idle) :
    UploadInv s t := by
  refine ⟨hc, ?_, ?_, ?_, ?_, ?_⟩ <;> rcases hs with h | h | h | h <;> simp [h]

section Record
variable {t : Upload} {e' : Eeprom}

theorem recordUpload_quiet (hs : g'.state = .sendRequest → g.state = .sendRequest)
    (ht : ¬ TimesOut g i) (hfx : dataFrames fx = []) : recordUpload t (g, e) i fx (g', e') = t := by
  unfold recordUpload
  rw [if_neg fun h => h.2 (hs h.1), if_neg ht, hfx]
  simp

theorem recordUpload_timeout (hs : g'.state ≠ .sendRequest) (ht : TimesOut g i)
    (hfx : dataFrames fx = []) :
    recordUpload t (g, e) i fx (g', e') = { frames := t.frames, timedOut := true } := by
  unfold recordUpload
  rw [if_neg fun h => hs h.1, if_pos ht, hfx]
  simp

theorem recordUpload_send {frame : List UInt8} (hs : g'.state ≠ .sendRequest)
    (ht : ¬ TimesOut g i) (hfx : dataFrames fx = [frame]) : recordUpload t (g, e) i fx (g', e') =
      { frames := t.frames ++ [(t.timedOut, frame)], timedOut := false } := by
  unfold recordUpload
  rw [if_neg fun h => hs h.1, if_neg ht, hfx]
  simp

theorem recordUpload_enter (hs : g'.state = .sendRequest) (hs0 : g.state ≠ .sendRequest) :
    recordUpload t (g, e) i fx (g', e') = {} := if_pos ⟨hs, hs0⟩

end Record

/-- **Every move keeps the invariant of the upload.** -/
theorem UploadInv.move {t : Upload} (ht : UploadInv (g, e) t) (h : CtrlInv g)
    (hlen : g.fileLength.toNat ≤ flagAddr) (hm : CtrlMove g e i g' fx) :
    UploadInv (g', applyEffects e fx) (recordUpload t (g, e) i fx (g', applyEffects e fx)) := by
  cases hm with
  | stay i hp =>
    rw [recordUpload_quiet id hp.timeout rfl]
    exact ht
  | failed now hs =>
    rw [recordUpload_quiet id (not_timesOut (by simp [hs])) rfl]
    exact ht
  | request now hs =>
    have hnt : ¬ TimesOut g (.tick now) := not_timesOut (by simp [hs])
    rw [recordUpload_quiet (fun _ => hs) hnt rfl]
    exact ⟨ht.1, ht.2, ht.3, ht.4, ht.5, ht.6⟩
  | finish now hs hl =>
    rw [recordUpload_quiet (by simp) (not_timesOut (by simp [hs])) rfl]
    refine ⟨ht.copies, by simp, by simp, by simp, by simp, fun _ => ?_⟩
    cases hto : t.timedOut with
    | false =>
      have hnext := ht.next hs hto
      rwa [hl] at hnext
    | true => exact absurd hl (ht.again hs hto).1
  | send now hs hne =>
    rw [recordUpload_send (by simp) (not_timesOut (by simp [hs])) (dataFrames_data g e)]
    refine ⟨?_, by simp, by simp, by simp, fun _ => ⟨rfl, ?_, ?_⟩, by simp⟩
    · exact ht.copies.snoc fun hto => (ht.again hs hto).2.2
    · cases hto : t.timedOut with
      | false =>
        rw [firstPayloads_sent, payload_dataFrame, ht.next hs hto]
        rfl
      | true =>
        rw [firstPayloads_resent, (ht.again hs hto).2.1]
        rfl
    · exact ⟨t.timedOut, by rw [List.getLast?_concat]; rfl⟩
  | timeout now hs hto =>
    have htick : TimesOut g (.tick now) := ⟨hs, hto⟩
    rw [recordUpload_timeout (by simp) htick rfl]
    obtain ⟨-, hsent, hlast⟩ := ht.pending hs
    exact ⟨ht.copies, by simp, by simp, fun _ _ => ⟨h.pending hs, hsent, hlast⟩, by simp, by simp⟩
  | restart now hs =>
    rw [recordUpload_enter rfl (by simp [hs])]
    exact ⟨copies_nil, fun _ => ⟨rfl, rfl⟩, by simp, by simp, by simp, by simp⟩
  | confirm now hs =>
    rw [recordUpload_quiet (by simp) id rfl]
    exact ⟨ht.copies, fun _ => ht.start (.inl hs), by simp, by simp, by simp, by simp⟩
  | erased now hs =>
    rw [recordUpload_quiet (by simp) id rfl]
    obtain ⟨hnil, hto⟩ := ht.start hs
    refine ⟨ht.copies, by simp, fun _ _ => ?_, fun _ hto' => ?_, by simp, by simp⟩
    · rw [hnil]
      simp [h.start hs]
    · rw [hto] at hto'
      cases hto'
  | ackLast now hs hl =>
    rw [recordUpload_quiet (by simp) id rfl]
    obtain ⟨-, hsent, -⟩ := ht.pending hs
    refine ⟨ht.copies, by simp, by simp, by simp, by simp, fun _ => ?_⟩
    rw [hsent, ← slice_advance h hlen, hl]
    rfl
  | ackMore now hs hl =>
    rw [recordUpload_quiet (by simp) id rfl]
    obtain ⟨hto, hsent, -⟩ := ht.pending hs
    refine ⟨ht.copies, by simp, fun _ _ => ?_, fun _ hto' => ?_, by simp, by simp⟩
    · rw [hsent, ← slice_advance h hlen]
      rfl
    · rw [hto] at hto'
      cases hto'
  | success now =>
    rw [recordUpload_quiet (by simp) id (by simp)]
    exact .of_state ht.copies (.inl rfl)
  | crcFail now =>
    rw [recordUpload_quiet (by simp) id rfl]
    exact .of_state ht.copies (.inr (.inl rfl))
  | refused cmd now hc =>
    rw [recordUpload_quiet (by simp) id rfl]
    exact .of_state ht.copies (.inr (.inr (.inl rfl)))

/-- An EEPROM with a downloaded file of four bytes. -/
def sampleEeprom : Eeprom :=
  store (store (fun _ => 0) 0 [1, 2, 3, 4]) flagAddr (readyRecord 4 0x04030201)

end BleHidUart.CtrlOta.Transfer
