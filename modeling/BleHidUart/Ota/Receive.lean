import BleHidUart.Ota.Session

/-!
# A download session

`acceptLog` lists the packets a session accepts, with the context each is accepted in. When the last
of them commits and their contents are long enough for the file, the EEPROM holds the ready record
of the announced file and the first bytes of the contents (`download_complete`): however the
contents are cut into packets, whatever is rejected in between, and also if the last packet is
longer than what the file still lacks.
-/

namespace BleHidUart.Ota.Receive

open BleHidUart.Board BleHidUart.CtrlOta.Metadata BleHidUart.Lib.Memory BleHidUart.Lib.Run
open BleHidUart.Ota.Handlers BleHidUart.Ota.Moves BleHidUart.Ota.Session

/-- The accepted packets of a run of data packets. -/
def acceptLog (c : OtaContext) : List DataFrame → List (OtaContext × DataFrame)
  | [] => []
  | f :: fs =>
    if Accepts c f then (c, f) :: acceptLog (otaHandle c (.data f)).1 fs
    else acceptLog (otaHandle c (.data f)).1 fs

/-- The contents of accepted packets, one after the other. -/
def contents (log : List (OtaContext × DataFrame)) : List UInt8 :=
  (log.map fun p => content p.2).flatten

@[simp] theorem contents_cons (c : OtaContext) (f : DataFrame)
    (log : List (OtaContext × DataFrame)) :
    contents ((c, f) :: log) = content f ++ contents log := rfl

theorem otaReset_closed : otaReset.state ≠ .receiving := by decide

theorem otaStep_data_closed {s : OtaContext × Eeprom} (hs : s.1.state ≠ .receiving)
    (f : DataFrame) : otaStep s (.data f) = (s, []) := by
  unfold otaStep
  rw [otaHandle_data, if_pos hs]
  rfl

theorem otaHandle_data_closed {c : OtaContext} (hs : c.state ≠ .receiving) (f : DataFrame) :
    (otaHandle c (.data f)).1 = c := by
  rw [otaHandle_data, if_pos hs]

theorem acceptLog_closed {c : OtaContext} (hs : c.state ≠ .receiving) :
    ∀ fs : List DataFrame, acceptLog c fs = []
  | [] => rfl
  | f :: fs => by
    unfold acceptLog
    rw [if_neg fun h => hs h.state, otaHandle_data_closed hs]
    exact acceptLog_closed hs fs

theorem final_closed {s : OtaContext × Eeprom} (hs : s.1.state ≠ .receiving) :
    ∀ fs : List DataFrame, final otaStep s (fs.map .data) = s
  | [] => rfl
  | f :: fs => by
    rw [List.map_cons, final_cons, otaStep_data_closed hs]
    exact final_closed hs fs

/-! ### A session in progress -/

/-- A session for a file of `len` bytes that has accepted the contents `xs`. -/
structure Receiving (len crc : UInt32) (xs : List UInt8) (s : OtaContext × Eeprom) : Prop where
  inv : OtaInv s.1 s.2
  state : s.1.state = .receiving
  length : s.1.fileLength = len
  fileCrc : s.1.fileCrc = crc
  count : s.1.receivedLength.toNat = min len.toNat xs.length
  image : slice s.2 0 s.1.receivedLength.toNat = xs.take len.toNat

variable {len crc : UInt32} {xs : List UInt8} {s : OtaContext × Eeprom}

/-- An accepted packet extends what is stored, up to the length of the file. -/
theorem Receiving.stored_eq (h : Receiving len crc xs s) (f : DataFrame) :
    xs.take len.toNat ++ stored s.1 f = (xs ++ content f).take len.toNat := by
  have hrem := toNat_remaining h.inv
  rw [h.length, h.count] at hrem
  unfold stored
  rw [h.length, hrem, List.take_append]
  congr 2
  omega

theorem Receiving.count_eq (h : Receiving len crc xs s) (f : DataFrame) :
    s.1.receivedLength.toNat + (stored s.1 f).length =
      min len.toNat (xs ++ content f).length := by
  have hlen := congrArg List.length (h.stored_eq f)
  rw [List.length_append, List.length_take, List.length_take] at hlen
  rw [h.count]
  exact hlen

theorem Receiving.accept (h : Receiving len crc xs s) {f : DataFrame} (ha : Accepts s.1 f) :
    Receiving len crc (xs ++ content f)
      (afterStore s.1 f, store s.2 s.1.receivedLength.toNat (stored s.1 f)) where
  inv := h.inv.afterStore f
  state := ha.state
  length := h.length
  fileCrc := h.fileCrc
  count := by rw [toNat_received_afterStore h.inv, h.count_eq]
  image := by rw [slice_afterStore h.inv, h.image, h.stored_eq]

theorem receiving_start {f : StartFrame} (ho : Opens s.1 f) :
    Receiving (startLen f) (startCrc f) [] (otaStep s (.start f)).1 := by
  have hm := otaHandle_move s.1 (.start f)
  have hstep : (otaStep s (.start f)).1 =
      ((otaHandle s.1 (.start f)).1, applyEffects s.2 (otaHandle s.1 (.start f)).2) := rfl
  rw [hstep]
  generalize (otaHandle s.1 (.start f)).1 = c' at hm ⊢
  generalize (otaHandle s.1 (.start f)).2 = fx at hm ⊢
  cases hm with
  | startIgnored _ hs => exact absurd ho.state hs
  | startRefused _ _ hno => exact absurd ho hno
  | startAccepted _ _ =>
    have heff : applyEffects s.2 (writeFlag 0 ++ [otaSendStartResponse otaResultSuccess,
        otaSendFlashEraseDone otaResultSuccess]) = store s.2 flagAddr [0] := by
      rw [applyEffects_append, applyEffects_writeFlag]
      rfl
    rw [heff]
    refine ⟨.restart (UInt32.le_iff_toNat_le.mp ho.le) fun hf => ?_, rfl, rfl, rfl, ?_, ?_⟩
    · rw [flagByte_store_flag] at hf
      exact absurd hf (by decide)
    · simp [opened, otaRestart]
    · simp [opened, otaRestart]

/-- The EEPROM after a complete download: the ready record and the image. -/
structure Downloaded (len crc : UInt32) (image : List UInt8) (e : Eeprom) : Prop where
  flag : flagByte e = ctrlOtaFlagReady
  length : storedLength e = len
  fileCrc : storedCrc e = crc
  image : slice e 0 len.toNat = image

theorem Receiving.commit (h : Receiving len crc xs s) {f : DataFrame}
    (hlen : len.toNat ≤ (xs ++ content f).length) :
    Downloaded len crc ((xs ++ content f).take len.toNat)
      (store (store s.2 s.1.receivedLength.toNat (stored s.1 f)) flagAddr
        (readyRecord s.1.fileLength s.1.fileCrc)) where
  flag := flagByte_store_record _ _ _
  length := by rw [storedLength_store_record, h.length]
  fileCrc := by rw [storedCrc_store_record, h.fileCrc]
  image := by
    have hbound := h.inv.length_le
    have hcount := h.count_eq f
    rw [h.length] at hbound
    rw [min_eq_left hlen] at hcount
    rw [slice_store_of_le (by omega), ← hcount]
    have happ := slice_store_append s.2 0 s.1.receivedLength.toNat (stored s.1 f)
    rw [Nat.zero_add] at happ
    rw [happ, h.image, h.stored_eq, hcount]

/-- The log ends with a packet that says it is the last one and passes the CRC test of the file. -/
def EndsWithCommit (log : List (OtaContext × DataFrame)) : Prop :=
  ∃ p ∈ log.getLast?, hasMore p.2 = 0 ∧ finalCrc p.1 p.2 = p.1.fileCrc

instance (log : List (OtaContext × DataFrame)) : Decidable (EndsWithCommit log) :=
  inferInstanceAs (Decidable (∃ p ∈ log.getLast?, hasMore p.2 = 0 ∧ finalCrc p.1 p.2 = p.1.fileCrc))

theorem not_endsWithCommit_nil : ¬ EndsWithCommit [] := by
  rintro ⟨p, hp, -⟩
  cases hp

theorem EndsWithCommit.tail {p : OtaContext × DataFrame} {log : List (OtaContext × DataFrame)}
    (h : EndsWithCommit (p :: log)) (hp : ¬ (hasMore p.2 = 0 ∧ finalCrc p.1 p.2 = p.1.fileCrc)) :
    EndsWithCommit log := by
  obtain ⟨q, hq, hq'⟩ := h
  cases log with
  | nil =>
    obtain rfl : p = q := by simpa using hq
    exact absurd hq' hp
  | cons r log => exact ⟨q, by simpa [List.getLast?_cons_cons] using hq, hq'⟩

/-- **A download that ends with a commit leaves the announced file.** Induction on the packets; the
contents accepted so far are in `xs`. -/
theorem download_complete : ∀ (fs : List DataFrame) {xs : List UInt8} {s : OtaContext × Eeprom},
    Receiving len crc xs s → EndsWithCommit (acceptLog s.1 fs) →
    len.toNat ≤ (xs ++ contents (acceptLog s.1 fs)).length →
    Downloaded len crc ((xs ++ contents (acceptLog s.1 fs)).take len.toNat)
      (final otaStep s (fs.map .data)).2
  | [], _, _, _, hend, _ => absurd hend not_endsWithCommit_nil
  | f :: fs, xs, s, h, hend, hlen => by
    rw [List.map_cons, final_cons]
    have hm := otaHandle_move s.1 (.data f)
    have hlog : acceptLog s.1 (f :: fs) = if Accepts s.1 f then
        (s.1, f) :: acceptLog (otaHandle s.1 (.data f)).1 fs
        else acceptLog (otaHandle s.1 (.data f)).1 fs := rfl
    have hstep : (otaStep s (.data f)).1 =
        ((otaHandle s.1 (.data f)).1, applyEffects s.2 (otaHandle s.1 (.data f)).2) := rfl
    rw [hlog] at hend hlen ⊢
    rw [hstep]
    generalize (otaHandle s.1 (.data f)).1 = c' at hm hend hlen ⊢
    generalize (otaHandle s.1 (.data f)).2 = fx at hm ⊢
    cases hm with
    | dataIgnored _ hs => exact absurd h.state hs
    | dataResend _ seq hs hna hlt =>
      rw [if_neg hna] at hend hlen ⊢
      have hinv := h.inv
      have hnext : Receiving len crc xs ({ s.1 with resendCount := s.1.resendCount + 1 }, s.2) :=
        ⟨⟨hinv.1, hinv.2, hinv.3, hinv.4, hinv.5⟩, h.2, h.3, h.4, h.5, h.6⟩
      exact download_complete fs hnext hend hlen
    | dataAborted _ seq hs hna hle =>
      rw [if_neg hna, acceptLog_closed otaReset_closed] at hend
      exact absurd hend not_endsWithCommit_nil
    | dataContinued _ ha hmore =>
      rw [if_pos ha] at hend hlen ⊢
      rw [applyEffects_append, applyEffects_stored h.inv]
      rw [contents_cons, ← List.append_assoc] at hlen ⊢
      exact download_complete fs (h.accept ha) (hend.tail fun hp => hmore hp.1) hlen
    | dataCommitted _ hc =>
      rw [if_pos hc.accepts, acceptLog_closed otaReset_closed] at hlen ⊢
      rw [applyEffects_append, applyEffects_stored h.inv, applyEffects_cons, applyEffect_dataAck,
        applyEffects_readyflag, final_closed otaReset_closed]
      rw [contents_cons, show contents [] = [] from rfl, List.append_nil] at hlen ⊢
      exact h.commit hlen
    | dataMismatched _ ha hlast hne =>
      rw [if_pos ha, acceptLog_closed otaReset_closed] at hend
      exact absurd (hend.tail fun hp => hne hp.2) not_endsWithCommit_nil

end BleHidUart.Ota.Receive
