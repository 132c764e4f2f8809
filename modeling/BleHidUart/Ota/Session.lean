import BleHidUart.Lib.Run
import BleHidUart.Ota.Moves

/-!
# The invariant of a download session

`OtaInv` relates the context of the app side to the EEPROM: what has been received is at the bottom
of the image area, the incremental CRC is that of these bytes, and while the ready flag stands no
file is open (`file_length` is `0`, so a packet stores nothing). Every move keeps it, hence every
run does, from any EEPROM.
-/

namespace BleHidUart.Ota.Session

open BleHidUart.Board BleHidUart.Eeprom BleHidUart.CtrlOta.Metadata BleHidUart.Lib.Memory
open BleHidUart.Lib.Run BleHidUart.Lib.Word BleHidUart.Ota.Handlers BleHidUart.Ota.Crc
open BleHidUart.Ota.Moves

/-- **The invariant** of the app side. -/
structure OtaInv (c : OtaContext) (e : Eeprom) : Prop where
  received_le : c.receivedLength.toNat ≤ c.fileLength.toNat
  length_le : c.fileLength.toNat ≤ flagAddr
  addr : c.eepromAddr = c.receivedLength
  crc : c.crc = crcOf (slice e 0 c.receivedLength.toNat)
  fresh : flagByte e = ctrlOtaFlagReady → c.fileLength = 0

theorem otaInv_reset (e : Eeprom) : OtaInv otaReset e :=
  ⟨le_rfl, Nat.zero_le _, rfl, rfl, fun _ => rfl⟩

theorem otaInv_init (e : Eeprom) : OtaInv otaInit e := otaInv_reset e

variable {c : OtaContext} {e : Eeprom}

theorem OtaInv.restart (hle : c.fileLength.toNat ≤ flagAddr)
    (hfresh : flagByte e = ctrlOtaFlagReady → c.fileLength = 0) : OtaInv (otaRestart c) e :=
  ⟨Nat.zero_le _, hle, rfl, rfl, hfresh⟩

/-- Only the part of the EEPROM below what was received and the flag matter. -/
theorem OtaInv.congr {e' : Eeprom} (h : OtaInv c e)
    (himg : ∀ i, i < c.receivedLength.toNat → e' i = e i)
    (hflag : flagByte e' = ctrlOtaFlagReady → flagByte e = ctrlOtaFlagReady) : OtaInv c e' := by
  have hs : slice e' 0 c.receivedLength.toNat = slice e 0 c.receivedLength.toNat :=
    slice_congr fun i _ hi => himg i (by omega)
  exact ⟨h.received_le, h.length_le, h.addr, by rw [hs, h.crc], fun hf => h.fresh (hflag hf)⟩

theorem OtaInv.clearFlag (h : OtaInv c e) : OtaInv c (store e flagAddr [0]) := by
  have hrec := h.received_le
  have hlen := h.length_le
  refine h.congr (fun i hi => store_of_lt _ (by omega)) fun hf => ?_
  rw [flagByte_store_flag] at hf
  exact absurd hf (by decide)

/-! ### Storing a packet -/

section Store
variable (h : OtaInv c e) (f : DataFrame)
include h

theorem toNat_remaining :
    (c.fileLength - c.receivedLength).toNat = c.fileLength.toNat - c.receivedLength.toNat :=
  toNat_sub_of_le h.received_le

theorem received_add_stored_le :
    c.receivedLength.toNat + (stored c f).length ≤ c.fileLength.toNat := by
  have hrec := h.received_le
  rw [length_stored, toNat_remaining h]
  omega

/-- The file is complete after the packet exactly when the content is long enough. -/
theorem received_add_stored_eq :
    c.receivedLength.toNat + (stored c f).length = c.fileLength.toNat ↔
      c.fileLength.toNat ≤ c.receivedLength.toNat + (content f).length := by
  have hrec := h.received_le
  rw [length_stored, length_content, toNat_remaining h]
  omega

theorem stored_eq_nil_of_closed (h0 : c.fileLength = 0) : stored c f = [] := by
  have hle := received_add_stored_le h f
  rw [h0, UInt32.toNat_zero] at hle
  exact List.length_eq_zero_iff.mp (by omega)

theorem toNat_received_afterStore :
    (afterStore c f).receivedLength.toNat = c.receivedLength.toNat + (stored c f).length := by
  have hle := received_add_stored_le h f
  have hlen := h.length_le
  have hpage := flagAddr_add_page
  exact toNat_add_ofNat (by omega)

theorem applyEffects_stored : applyEffects e (eepromWrite c.eepromAddr (stored c f)) =
    store e c.receivedLength.toNat (stored c f) := by
  have hle := received_add_stored_le h f
  have hlen := h.length_le
  have hpage := flagAddr_add_page
  rw [applyEffects_eepromWrite (by rw [h.addr]; omega), h.addr]

theorem slice_afterStore : slice (store e c.receivedLength.toNat (stored c f)) 0
    (afterStore c f).receivedLength.toNat = slice e 0 c.receivedLength.toNat ++ stored c f := by
  have happ := slice_store_append e 0 c.receivedLength.toNat (stored c f)
  rwa [Nat.zero_add, ← toNat_received_afterStore h f] at happ

theorem stored_store_stored :
    flagByte (store e c.receivedLength.toNat (stored c f)) = flagByte e ∧
      storedLength (store e c.receivedLength.toNat (stored c f)) = storedLength e ∧
      storedCrc (store e c.receivedLength.toNat (stored c f)) = storedCrc e := by
  have hle := received_add_stored_le h f
  have hlen := h.length_le
  exact stored_store_of_le (by omega)

/-- **The last packet is decided on the CRC of all that was received.** -/
theorem finalCrc_eq :
    finalCrc c f = otaFileCrcCalculate (slice e 0 c.receivedLength.toNat ++ stored c f) := by
  unfold finalCrc afterStore
  rw [h.crc, ← crcOf_append, finalize_crcOf]

theorem OtaInv.afterStore :
    OtaInv (afterStore c f) (store e c.receivedLength.toNat (stored c f)) where
  received_le := by
    rw [toNat_received_afterStore h]
    exact received_add_stored_le h f
  length_le := h.length_le
  addr := by
    have haddr := h.addr
    simp only [Moves.afterStore, haddr]
  crc := by
    have hcrc := h.crc
    rw [slice_afterStore h, crcOf_append, ← hcrc]
    rfl
  fresh := by
    rw [(stored_store_stored h f).1]
    exact h.fresh

end Store

/-! ### What a move does to the EEPROM -/

@[simp] theorem applyEffect_dataAck (e : Eeprom) (seq : UInt16) (r : UInt8) :
    applyEffect e (otaSendDataAck seq r) = e := rfl

/-- **What a frame does to the EEPROM**, together with the context it leaves: nothing, the flag is
cleared, a packet is stored, or the last packet is stored and the ready record after it. -/
inductive Wrote (c : OtaContext) (e : Eeprom) : AppFrame → OtaContext → Eeprom → Prop
  | nothing (f : AppFrame) (c' : OtaContext) : (∀ d, f = .data d → ¬ Accepts c d) →
      (∀ d, f = .start d → c.state ≠ .idle) → OtaInv c' e →
      c'.fileLength = c.fileLength ∧ c'.fileCrc = c.fileCrc ∨ c' = otaReset → Wrote c e f c' e
  | cleared (f : StartFrame) (c' : OtaContext) : c.state = .idle →
      OtaInv c' (store e flagAddr [0]) →
      c' = opened c (startLen f) (startCrc f) ∧ Opens c f ∨ c' = otaReset ∧ ¬ Opens c f →
      Wrote c e (.start f) c' (store e flagAddr [0])
  | packet (f : DataFrame) (c' : OtaContext) : Accepts c f → ¬ Commits c f →
      OtaInv c' (store e c.receivedLength.toNat (stored c f)) →
      c' = afterStore c f ∨ c' = otaReset →
      Wrote c e (.data f) c' (store e c.receivedLength.toNat (stored c f))
  | committed (f : DataFrame) : Commits c f →
      Wrote c e (.data f) otaReset
        (store (store e c.receivedLength.toNat (stored c f)) flagAddr
          (readyRecord c.fileLength c.fileCrc))

theorem wrote_of_move {f : AppFrame} {c' : OtaContext} {fx : List Effect} (hm : OtaMove c f c' fx)
    (h : OtaInv c e) : Wrote c e f c' (applyEffects e fx) := by
  cases hm with
  | startIgnored f hs =>
    refine .nothing _ _ (by simp) ?_ h (.inl ⟨rfl, rfl⟩)
    rintro d -
    exact hs
  | startRefused f hs hno =>
    rw [applyEffects_append, applyEffects_writeFlag]
    exact .cleared f _ hs (otaInv_reset _) (.inr ⟨rfl, hno⟩)
  | startAccepted f ho =>
    rw [applyEffects_append, applyEffects_writeFlag]
    have hinv : OtaInv (opened c (startLen f) (startCrc f)) (store e flagAddr [0]) := by
      refine OtaInv.restart (UInt32.le_iff_toNat_le.mp ho.le) fun hf => ?_
      rw [flagByte_store_flag] at hf
      exact absurd hf (by decide)
    exact .cleared f _ ho.state hinv (.inl ⟨rfl, ho⟩)
  | dataIgnored f hs =>
    refine .nothing _ _ ?_ (by simp) h (.inl ⟨rfl, rfl⟩)
    rintro d ⟨⟩ ha
    exact hs ha.state
  | dataResend f seq hs hna hlt =>
    refine .nothing _ _ ?_ (by simp) ⟨h.1, h.2, h.3, h.4, h.5⟩ (.inl ⟨rfl, rfl⟩)
    rintro d ⟨⟩
    exact hna
  | dataAborted f seq hs hna hle =>
    refine .nothing _ _ ?_ (by simp) (otaInv_reset _) (.inr rfl)
    rintro d ⟨⟩
    exact hna
  | dataContinued f ha hm =>
    rw [applyEffects_append, applyEffects_stored h]
    exact .packet f _ ha (fun hc => hm hc.last) (h.afterStore f) (.inl rfl)
  | dataCommitted f hc =>
    rw [applyEffects_append, applyEffects_stored h, applyEffects_cons, applyEffect_dataAck,
      applyEffects_readyflag]
    exact .committed f hc
  | dataMismatched f ha hm hne =>
    rw [applyEffects_append, applyEffects_stored h]
    exact .packet f _ ha (fun hc => hne hc.crc) (otaInv_reset _) (.inr rfl)
  | packageRetried f _ =>
    exact .nothing _ _ (by simp) (by simp) (.restart h.length_le h.fresh) (.inl ⟨rfl, rfl⟩)
  | packageRetryRefused f _ => exact .nothing _ _ (by simp) (by simp) h (.inl ⟨rfl, rfl⟩)
  | eraseRetried f =>
    exact .nothing _ _ (by simp) (by simp) ⟨h.1, h.2, h.3, h.4, h.5⟩ (.inl ⟨rfl, rfl⟩)
  | eraseRetryRefused f => exact .nothing _ _ (by simp) (by simp) h (.inl ⟨rfl, rfl⟩)

theorem OtaInv.of_wrote {f : AppFrame} {c' : OtaContext} {e' : Eeprom} (h : Wrote c e f c' e') :
    OtaInv c' e' := by
  rcases h with ⟨_, _, _, _, h, _⟩ | ⟨_, _, _, h, _⟩ | ⟨_, _, _, _, h, _⟩ | _
  · exact h
  · exact h
  · exact h
  · exact otaInv_reset _

theorem otaStep_wrote {s : OtaContext × Eeprom} (f : AppFrame) (h : OtaInv s.1 s.2) :
    Wrote s.1 s.2 f (otaStep s f).1.1 (otaStep s f).1.2 := wrote_of_move (otaHandle_move _ f) h

/-- **Every frame keeps the invariant.** -/
theorem otaInv_step (s : OtaContext × Eeprom) (f : AppFrame) (h : OtaInv s.1 s.2) :
    OtaInv (otaStep s f).1.1 (otaStep s f).1.2 := .of_wrote (otaStep_wrote f h)

/-- **Every run keeps the invariant**, from any EEPROM. -/
theorem otaInv_run (e : Eeprom) (fs : List AppFrame) :
    OtaInv (final otaStep (otaInit, e) fs).1 (final otaStep (otaInit, e) fs).2 :=
  final_invariant otaInv_step (otaInv_init e) fs

end BleHidUart.Ota.Session
