import BleHidUart.Ota.Receive

/-!
# The accepted contents of a session

The history variable collects the contents of the packets accepted since the last start request or
package retry. `session_invariant` says how the fields of the context, the EEPROM and that history
belong together while a session is open, for every run, and that no packet is ever stored in the
metadata page.
-/

namespace BleHidUart.Ota.Accepted

open BleHidUart.Board BleHidUart.Eeprom BleHidUart.CtrlOta.Metadata BleHidUart.Lib.Memory
open BleHidUart.Lib.Run BleHidUart.Lib.Word BleHidUart.Ota.Handlers BleHidUart.Ota.Crc
open BleHidUart.Ota.Moves BleHidUart.Ota.Session BleHidUart.Ota.Receive

/-- The contents accepted since the last accepted start request or package retry. -/
def recordAccepted (h : List (List UInt8)) (s : OtaContext × Eeprom) :
    AppFrame → List Effect → OtaContext × Eeprom → List (List UInt8)
  | .start f, _, _ => if Opens s.1 f then [] else h
  | .data d, _, _ => if Accepts s.1 d then h ++ [content d] else h
  | .packageRetry f, _, _ => if byteAt f.bytes 4 = 0x0E then [] else h
  | .eraseRetry _, _, _ => h

/-- The app side with that history. -/
abbrev acceptedStep : (OtaContext × Eeprom) × List (List UInt8) → AppFrame →
    ((OtaContext × Eeprom) × List (List UInt8)) × List Effect :=
  withHistory otaStep recordAccepted

/-- **An open session** with the contents `acc`. -/
structure OpenSession (c : OtaContext) (e : Eeprom) (acc : List (List UInt8)) : Prop where
  received_le : c.receivedLength ≤ c.fileLength
  length_le : c.fileLength ≤ ctrlOtaFlagAddr
  addr : c.eepromAddr = otaEepromBaseAddr + c.receivedLength
  resend_lt : c.resendCount < otaMaxResendCount
  seq : c.expectedSeq = UInt16.ofNat acc.length
  image : slice e 0 c.receivedLength.toNat = acc.flatten.take c.fileLength.toNat
  runningCrc : c.crc.runningCrc = xorWords (slice e 0 c.receivedLength.toNat)
  crcPartialWord :
    c.crc.crcPartialWord = pendingWord (pendingBytes (slice e 0 c.receivedLength.toNat))
  crcPartialShift : c.crc.crcPartialShift = UInt8.ofNat (8 * (c.receivedLength.toNat % 4))

/-- The invariant of a run with its history. -/
structure AcceptedInv (s : (OtaContext × Eeprom) × List (List UInt8)) : Prop where
  ota : OtaInv s.1.1 s.1.2
  session : s.1.1.state = .receiving →
    Receiving s.1.1.fileLength s.1.1.fileCrc s.2.flatten s.1
  resend : s.1.1.state = .receiving → s.1.1.resendCount < otaMaxResendCount
  seq : s.1.1.state = .receiving → s.1.1.expectedSeq = UInt16.ofNat s.2.length

theorem AcceptedInv.openSession {s : (OtaContext × Eeprom) × List (List UInt8)}
    (h : AcceptedInv s) (hs : s.1.1.state = .receiving) : OpenSession s.1.1 s.1.2 s.2 := by
  have hcrc := h.ota.crc
  rw [crcOf_eq, length_slice] at hcrc
  refine ⟨UInt32.le_iff_toNat_le.mpr h.ota.received_le, UInt32.le_iff_toNat_le.mpr h.ota.length_le,
    ?_, h.resend hs, h.seq hs, (h.session hs).image, by rw [hcrc], by rw [hcrc], by rw [hcrc]⟩
  rw [h.ota.addr]
  exact (UInt32.zero_add _).symm

theorem zero_lt_maxResend : (0 : UInt8) < otaMaxResendCount := by decide

theorem receiving_restart {c : OtaContext} {e : Eeprom} (h : OtaInv c e) :
    Receiving c.fileLength c.fileCrc [] (otaRestart c, e) :=
  ⟨.restart h.length_le h.fresh, rfl, rfl, rfl, by simp [otaRestart], by simp [otaRestart]⟩

theorem acceptedInv_step (s : (OtaContext × Eeprom) × List (List UInt8)) (f : AppFrame)
    (h : AcceptedInv s) : AcceptedInv (acceptedStep s f).1 := by
  have hota : OtaInv (acceptedStep s f).1.1.1 (acceptedStep s f).1.1.2 := otaInv_step s.1 f h.ota
  suffices hopen : (acceptedStep s f).1.1.1.state = .receiving →
      Receiving (acceptedStep s f).1.1.1.fileLength (acceptedStep s f).1.1.1.fileCrc
        (acceptedStep s f).1.2.flatten (acceptedStep s f).1.1 ∧
      (acceptedStep s f).1.1.1.resendCount < otaMaxResendCount ∧
      (acceptedStep s f).1.1.1.expectedSeq = UInt16.ofNat (acceptedStep s f).1.2.length from
    ⟨hota, fun hs => (hopen hs).1, fun hs => (hopen hs).2.1, fun hs => (hopen hs).2.2⟩
  clear hota
  have hm := otaHandle_move s.1.1 f
  have hstart : ∀ d, f = .start d → Opens s.1.1 d →
      Receiving (startLen d) (startCrc d) [] (otaStep s.1 (.start d)).1 :=
    fun d _ ho => receiving_start ho
  simp only [withHistory_fst, withHistory_snd, otaStep] at hstart ⊢
  generalize hc' : (otaHandle s.1.1 f).1 = c' at hm ⊢
  generalize hfx : (otaHandle s.1.1 f).2 = fx at hm ⊢
  intro hs'
  cases hm with
  | startIgnored f hs =>
    have hkeep : recordAccepted s.2 s.1 (.start f) [] (s.1.1, applyEffects s.1.2 []) = s.2 :=
      if_neg fun ho => hs ho.state
    rw [hkeep]
    exact ⟨h.session hs', h.resend hs', h.seq hs'⟩
  | startAccepted f ho =>
    have hrecv := hstart f rfl ho
    rw [hc', hfx] at hrecv
    simp only [recordAccepted, if_pos ho]
    exact ⟨hrecv, zero_lt_maxResend, rfl⟩
  | dataIgnored d hs => exact absurd hs' hs
  | dataResend d seq hs hna hlt =>
    simp only [recordAccepted, if_neg hna]
    have hold := h.session hs
    have hinv := hold.inv
    exact ⟨⟨⟨hinv.1, hinv.2, hinv.3, hinv.4, hinv.5⟩, hold.2, hold.3, hold.4, hold.5, hold.6⟩, hlt,
      h.seq hs⟩
  | dataContinued d ha hmore =>
    have hnext := (h.session ha.state).accept ha
    simp only [recordAccepted, if_pos ha, applyEffects_append, applyEffects_stored h.ota]
    rw [List.flatten_append, List.flatten_singleton]
    refine ⟨hnext, zero_lt_maxResend, ?_⟩
    have hseq := h.seq ha.state
    dsimp only [afterStore]
    rw [hseq, List.length_append, List.length_singleton]
    exact (UInt16.ofNat_add _ _).symm
  | packageRetried f hb =>
    simp only [recordAccepted, if_pos hb]
    have hrecv : Receiving s.1.1.fileLength s.1.1.fileCrc [] (otaRestart s.1.1, s.1.2) :=
      receiving_restart h.ota
    exact ⟨hrecv, zero_lt_maxResend, rfl⟩
  | packageRetryRefused f hb =>
    simp only [recordAccepted, if_neg hb]
    exact ⟨h.session hs', h.resend hs', h.seq hs'⟩
  | eraseRetryRefused f => exact ⟨h.session hs', h.resend hs', h.seq hs'⟩
  | startRefused | dataAborted | dataCommitted | dataMismatched | eraseRetried => cases hs'

theorem acceptedInv_run (e : Eeprom) (fs : List AppFrame) :
    AcceptedInv (final acceptedStep ((otaInit, e), []) fs) := by
  have hclosed : otaInit.state ≠ .receiving := by decide
  refine final_invariant acceptedInv_step ⟨otaInv_init e, ?_, ?_, ?_⟩ fs
  · exact fun hs => absurd hs hclosed
  · exact fun hs => absurd hs hclosed
  · exact fun hs => absurd hs hclosed

/-! ### Where packets are stored -/

theorem i2cWrites_data {c : OtaContext} {e : Eeprom} (h : OtaInv c e) (d : DataFrame) :
    ∃ ws, i2cWrites (otaHandle c (.data d)).2 =
        ws ++
          (if Commits c d then i2cWrites (ctrlOtaSetotaReadyflag c.fileLength c.fileCrc) else []) ∧
      ∀ w ∈ ws, ∀ (e' : Eeprom) (a : ℕ), flagAddr ≤ a → deviceWrite e' w a = e' a := by
  have hle := received_add_stored_le h d
  have hlen := h.length_le
  have hpage := flagAddr_add_page
  have hbelow : ∀ w ∈ i2cEepromWrite c.eepromAddr (stored c d), ∀ (e' : Eeprom) (a : ℕ),
      flagAddr ≤ a → deviceWrite e' w a = e' a := fun w hw e' a ha =>
    deviceWrite_of_mem (by rw [h.addr]; omega) hw e' (by rw [h.addr]; omega)
  have hm := otaHandle_move c (.data d)
  generalize (otaHandle c (.data d)).1 = c' at hm
  generalize (otaHandle c (.data d)).2 = fx at hm ⊢
  cases hm with
  | dataIgnored _ hs =>
    rw [if_neg fun hc => hs hc.accepts.state]
    exact ⟨[], rfl, by simp⟩
  | dataResend _ _ _ hna | dataAborted _ _ _ hna =>
    rw [if_neg fun hc => hna hc.accepts]
    exact ⟨[], rfl, by simp⟩
  | dataContinued _ ha hmore =>
    rw [if_neg fun hc => hmore hc.last]
    exact ⟨_, by simp [otaSendDataAck], hbelow⟩
  | dataMismatched _ ha hlast hne =>
    rw [if_neg fun hc => hne hc.crc]
    exact ⟨_, by simp [otaSendDataAck], hbelow⟩
  | dataCommitted _ hc =>
    rw [if_pos hc]
    exact ⟨_, by simp [otaSendDataAck], hbelow⟩

/-- **The invariant of a download session**, in every reachable state: an open session agrees with
the contents accepted since it was opened or started over, and the data of a packet never reach the
metadata page. -/
theorem session_invariant (e : Eeprom) (fs : List AppFrame) :
    let s := final acceptedStep ((otaInit, e), []) fs
    (s.1.1.state = .receiving → OpenSession s.1.1 s.1.2 s.2) ∧
      ∀ d : DataFrame, ∃ ws,
        i2cWrites (otaStep s.1 (.data d)).2 = ws ++ (if Commits s.1.1 d then
          i2cWrites (ctrlOtaSetotaReadyflag s.1.1.fileLength s.1.1.fileCrc) else []) ∧
        ∀ w ∈ ws, ∀ (e' : Eeprom) (a : ℕ), flagAddr ≤ a → deviceWrite e' w a = e' a := by
  intro s
  have h : AcceptedInv s := acceptedInv_run e fs
  exact ⟨h.openSession, i2cWrites_data h.ota⟩

end BleHidUart.Ota.Accepted
