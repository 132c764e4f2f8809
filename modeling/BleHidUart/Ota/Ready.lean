import BleHidUart.Ota.Session

/-!
# What the ready flag certifies

`Certified` says what a ready flag promises: the stored length and CRC are those of the last
accepted start request, the session that set the flag stored exactly that many bytes, they are the
image, and the image has the stored CRC. The handler of the last packet compares the CRC only, not
the number of received bytes, so a last packet that comes early or without a file can commit.
`certified_iff` says exactly when the promise is kept: when no such packet commits.
-/

namespace BleHidUart.Ota.Ready

open BleHidUart.Board BleHidUart.CtrlOta.Metadata BleHidUart.Lib.Memory BleHidUart.Lib.Run
open BleHidUart.Lib.Word BleHidUart.Ota.Handlers BleHidUart.Ota.Moves BleHidUart.Ota.Session

/-! ### The history of a download -/

/-- The length and the CRC of the last accepted start request, the bytes stored since the session
last started over, and the bytes of the session that last set the flag. -/
structure Download where
  lastStart : Option (UInt32 × UInt32) := none
  session : List UInt8 := []
  committed : List UInt8 := []

/-- What a frame adds to the history. -/
def recordDownload (h : Download) (s : OtaContext × Eeprom) :
    AppFrame → List Effect → OtaContext × Eeprom → Download
  | .start f, _, _ =>
    if Opens s.1 f then { h with lastStart := some (startLen f, startCrc f), session := [] } else h
  | .data f, _, _ =>
    if Accepts s.1 f then
      { h with
        session := h.session ++ stored s.1 f
        committed := if Commits s.1 f then h.session ++ stored s.1 f else h.committed }
    else h
  | .packageRetry f, _, _ => if byteAt f.bytes 4 = 0x0E then { h with session := [] } else h
  | .eraseRetry _, _, _ => h

/-- The app side with its history. -/
abbrev downloadStep : (OtaContext × Eeprom) × Download → AppFrame →
    ((OtaContext × Eeprom) × Download) × List Effect :=
  withHistory otaStep recordDownload

/-- **The promise of the ready flag.** -/
def Certified (s : (OtaContext × Eeprom) × Download) : Prop :=
  flagByte s.1.2 = ctrlOtaFlagReady →
    0 < (storedLength s.1.2).toNat ∧ (storedLength s.1.2).toNat ≤ flagAddr ∧
    s.2.lastStart = some (storedLength s.1.2, storedCrc s.1.2) ∧
    s.2.committed.length = (storedLength s.1.2).toNat ∧
    slice s.1.2 0 (storedLength s.1.2).toNat = s.2.committed ∧
    otaFileCrcCalculate (slice s.1.2 0 (storedLength s.1.2).toNat) = storedCrc s.1.2

/-- A packet that commits completes a file: one is open, and the content is at least what it still
lacks. -/
def CommitCompletes (c : OtaContext) : AppFrame → Prop
  | .data d => Commits c d →
    c.fileLength ≠ 0 ∧ c.fileLength.toNat ≤ c.receivedLength.toNat + (content d).length
  | _ => True

instance (c : OtaContext) : (f : AppFrame) → Decidable (CommitCompletes c f)
  | .data d => inferInstanceAs (Decidable (Commits c d → _ ∧ _ ≤ _))
  | .start _ | .packageRetry _ | .eraseRetry _ => .isTrue trivial

/-! ### The invariant -/

/-- The history agrees with the context and the EEPROM. -/
structure HistInv (s : (OtaContext × Eeprom) × Download) : Prop where
  ota : OtaInv s.1.1 s.1.2
  lastStart : s.1.1.fileLength ≠ 0 → s.2.lastStart = some (s.1.1.fileLength, s.1.1.fileCrc)
  session : s.1.1.state = .receiving → s.2.session = slice s.1.2 0 s.1.1.receivedLength.toNat

section Record
variable {s : OtaContext × Eeprom} {h : Download} {fx : List Effect} {s' : OtaContext × Eeprom}

theorem recordDownload_opens {f : StartFrame} (ho : Opens s.1 f) :
    recordDownload h s (.start f) fx s' =
      { h with lastStart := some (startLen f, startCrc f), session := [] } := if_pos ho

theorem recordDownload_start {f : StartFrame} (ho : ¬ Opens s.1 f) :
    recordDownload h s (.start f) fx s' = h := if_neg ho

theorem recordDownload_accepted {f : DataFrame} (ha : Accepts s.1 f) :
    recordDownload h s (.data f) fx s' =
      { h with
        session := h.session ++ stored s.1 f
        committed := if Commits s.1 f then h.session ++ stored s.1 f else h.committed } := if_pos ha

theorem recordDownload_data {f : DataFrame} (ha : ¬ Accepts s.1 f) :
    recordDownload h s (.data f) fx s' = h := if_neg ha

theorem recordDownload_retry {f : PackageRetryFrame} (hb : byteAt f.bytes 4 = 0x0E) :
    recordDownload h s (.packageRetry f) fx s' = { h with session := [] } := if_pos hb

theorem recordDownload_retryRefused {f : PackageRetryFrame} (hb : byteAt f.bytes 4 ≠ 0x0E) :
    recordDownload h s (.packageRetry f) fx s' = h := if_neg hb

theorem recordDownload_nothing {f : AppFrame} (hd : ∀ d, f = .data d → ¬ Accepts s.1 d)
    (hst : ∀ d, f = .start d → s.1.state ≠ .idle) :
    (recordDownload h s f fx s').lastStart = h.lastStart ∧
      (recordDownload h s f fx s').committed = h.committed := by
  cases f with
  | start f =>
    rw [recordDownload_start fun ho => hst f rfl ho.state]
    exact ⟨rfl, rfl⟩
  | data f =>
    rw [recordDownload_data (hd f rfl)]
    exact ⟨rfl, rfl⟩
  | packageRetry f =>
    by_cases hb : byteAt f.bytes 4 = 0x0E
    · rw [recordDownload_retry hb]
      exact ⟨rfl, rfl⟩
    · rw [recordDownload_retryRefused hb]
      exact ⟨rfl, rfl⟩
  | eraseRetry f => exact ⟨rfl, rfl⟩

end Record

variable {s : (OtaContext × Eeprom) × Download}

theorem lastStart_step (h : HistInv s) (f : AppFrame) :
    (downloadStep s f).1.1.1.fileLength ≠ 0 → (downloadStep s f).1.2.lastStart =
      some ((downloadStep s f).1.1.1.fileLength, (downloadStep s f).1.1.1.fileCrc) := by
  have hw := otaStep_wrote f h.ota
  simp only [withHistory_fst, withHistory_snd]
  generalize (otaStep s.1 f).1 = s' at hw ⊢
  generalize (otaStep s.1 f).2 = fx
  obtain ⟨c', e'⟩ := s'
  dsimp only at hw ⊢
  intro hne
  cases hw with
  | nothing f c' hd hst hinv hkeep =>
    rcases hkeep with ⟨hl, hc⟩ | hr
    · rw [(recordDownload_nothing hd hst).1, h.lastStart (by rwa [← hl]), ← hl, ← hc]
    · exact absurd (by rw [hr]; rfl) hne
  | cleared f c' hidle hinv hkind =>
    rcases hkind with ⟨hr, ho⟩ | ⟨hr, -⟩
    · obtain rfl : c' = opened s.1.1 (startLen f) (startCrc f) := hr
      rw [recordDownload_opens ho]
      rfl
    · exact absurd (by rw [hr]; rfl) hne
  | packet f c' ha hnc hinv hkind =>
    rcases hkind with hr | hr
    · rw [recordDownload_accepted ha]
      subst hr
      exact h.lastStart hne
    · exact absurd (by rw [hr]; rfl) hne
  | committed f hc => exact absurd rfl hne

theorem session_step (h : HistInv s) (f : AppFrame) :
    (downloadStep s f).1.1.1.state = .receiving → (downloadStep s f).1.2.session =
      slice (downloadStep s f).1.1.2 0 (downloadStep s f).1.1.1.receivedLength.toNat := by
  have hm := otaHandle_move s.1.1 f
  simp only [withHistory_fst, withHistory_snd, otaStep]
  generalize (otaHandle s.1.1 f).1 = c' at hm ⊢
  generalize (otaHandle s.1.1 f).2 = fx at hm ⊢
  intro hrecv
  cases hm with
  | startIgnored f hs =>
    rw [recordDownload_start fun ho => hs ho.state]
    exact h.session hrecv
  | startRefused f hs hno => cases hrecv
  | startAccepted f ho =>
    rw [recordDownload_opens ho]
    rfl
  | dataIgnored f hs => exact absurd hrecv hs
  | dataResend f seq hs hna hlt =>
    rw [recordDownload_data hna]
    exact h.session hs
  | dataAborted f seq hs hna hle => cases hrecv
  | dataContinued f ha hm =>
    rw [recordDownload_accepted ha, applyEffects_append, applyEffects_stored h.ota]
    simp only [applyEffects_cons, applyEffect_dataAck, applyEffects_nil]
    rw [slice_afterStore h.ota, h.session ha.state]
  | dataCommitted f hc => cases hrecv
  | dataMismatched f ha hm hne => cases hrecv
  | packageRetried f hb =>
    rw [recordDownload_retry hb]
    rfl
  | packageRetryRefused f hb =>
    rw [recordDownload_retryRefused hb]
    exact h.session hrecv
  | eraseRetried f => cases hrecv
  | eraseRetryRefused f => exact h.session hrecv

/-- **Every frame keeps the history in agreement.** -/
theorem histInv_step (s : (OtaContext × Eeprom) × Download) (f : AppFrame) (h : HistInv s) :
    HistInv (downloadStep s f).1 :=
  ⟨otaInv_step s.1 f h.ota, lastStart_step h f, session_step h f⟩

/-! ### When a commit keeps the promise -/

theorem certified_commit (h : HistInv s) {f : DataFrame} (hc : Commits s.1.1 f) :
    Certified (downloadStep s (.data f)).1 ↔ s.1.1.fileLength ≠ 0 ∧
      s.1.1.fileLength.toNat ≤ s.1.1.receivedLength.toNat + (content f).length := by
  have hw := otaStep_wrote (.data f) h.ota
  have hle := received_add_stored_le h.ota f
  have hlen := h.ota.length_le
  have hsess := h.session hc.accepts.state
  have hcomp := received_add_stored_eq h.ota f
  have hfin := hc.crc
  rw [finalCrc_eq h.ota] at hfin
  have hstate : (otaStep s.1 (.data f)).1 = (otaReset,
      store (store s.1.2 s.1.1.receivedLength.toNat (stored s.1.1 f)) flagAddr
        (readyRecord s.1.1.fileLength s.1.1.fileCrc)) := by
    generalize (otaStep s.1 (.data f)).1 = s' at hw ⊢
    obtain ⟨c', e'⟩ := s'
    dsimp only at hw
    cases hw with
    | nothing _ _ hd => exact absurd hc.accepts (hd f rfl)
    | packet _ _ _ hnc => exact absurd hc hnc
    | committed => rfl
  have himg : slice (store (store s.1.2 s.1.1.receivedLength.toNat (stored s.1.1 f)) flagAddr
      (readyRecord s.1.1.fileLength s.1.1.fileCrc)) 0
      (s.1.1.receivedLength.toNat + (stored s.1.1 f).length) =
      slice s.1.2 0 s.1.1.receivedLength.toNat ++ stored s.1.1 f := by
    have happ := slice_store_append s.1.2 0 s.1.1.receivedLength.toNat (stored s.1.1 f)
    rw [slice_store_of_le (by omega), ← happ, Nat.zero_add]
  unfold Certified
  rw [withHistory_fst, withHistory_snd, hstate, recordDownload_accepted hc.accepts]
  simp only [if_pos hc, storedLength_store_record, storedCrc_store_record, flagByte_store_record,
    hsess, List.length_append, length_slice]
  rw [← hcomp]
  constructor
  · intro hcert
    obtain ⟨hpos, -, -, hn, -⟩ := hcert trivial
    refine ⟨fun h0 => ?_, hn⟩
    rw [h0] at hpos
    exact absurd hpos (lt_irrefl 0)
  · rintro ⟨hne, hn⟩ -
    have hpos : 0 < s.1.1.fileLength.toNat := by
      refine Nat.pos_of_ne_zero fun h0 => hne (UInt32.toNat_inj.mp ?_)
      rw [h0]
      rfl
    rw [hn] at himg
    rw [himg]
    exact ⟨hpos, hlen, h.lastStart hne, hn, rfl, hfin⟩

theorem certified_of_not_commit (h : HistInv s) (hs : Certified s) {f : AppFrame}
    (hn : ∀ d, f = .data d → ¬ Commits s.1.1 d) : Certified (downloadStep s f).1 := by
  have hw := otaStep_wrote f h.ota
  unfold Certified at hs ⊢
  rw [withHistory_fst, withHistory_snd]
  generalize (otaStep s.1 f).1 = s' at hw ⊢
  generalize (otaStep s.1 f).2 = fx
  obtain ⟨c', e'⟩ := s'
  dsimp only at hw ⊢
  intro hf
  cases hw with
  | nothing f c' hd hst =>
    rw [(recordDownload_nothing hd hst).1, (recordDownload_nothing hd hst).2]
    exact hs hf
  | cleared =>
    rw [flagByte_store_flag] at hf
    exact absurd hf (by decide)
  | packet f c' ha hnc =>
    have hf' : flagByte s.1.2 = ctrlOtaFlagReady := by
      rw [← (stored_store_stored h.ota f).1]
      exact hf
    have hnil : stored s.1.1 f = [] := stored_eq_nil_of_closed h.ota f (h.ota.fresh hf')
    rw [recordDownload_accepted ha]
    simp only [hnil, store_nil, if_neg hnc]
    exact hs hf'
  | committed f hc => exact absurd hc (hn f rfl)

/-- **One frame** keeps the promise exactly when it does not commit an incomplete file. -/
theorem certified_step (h : HistInv s) (hs : Certified s) (f : AppFrame) :
    Certified (downloadStep s f).1 ↔ CommitCompletes s.1.1 f := by
  by_cases hc : ∃ d, f = .data d ∧ Commits s.1.1 d
  · obtain ⟨d, rfl, hc⟩ := hc
    rw [certified_commit h hc]
    exact ⟨fun hgood _ => hgood, fun hgood => hgood hc⟩
  · have hn : ∀ d, f = .data d → ¬ Commits s.1.1 d := fun d hd hcd => hc ⟨d, hd, hcd⟩
    refine iff_of_true (certified_of_not_commit h hs hn) ?_
    cases f with
    | data d => exact fun hcd => absurd hcd (hn d rfl)
    | start | packageRetry | eraseRetry => trivial

/-- **The ready flag certifies a complete, verified image all along a run exactly when every packet
that commits completes a file.** -/
theorem certified_iff {e : Eeprom} (he : flagByte e ≠ ctrlOtaFlagReady) (fs : List AppFrame) :
    (∀ xs, xs <+: fs → Certified (final downloadStep ((otaInit, e), {}) xs)) ↔
      EachStep otaStep (fun s f => CommitCompletes s.1 f) (otaInit, e) fs := by
  have hinv : HistInv ((otaInit, e), ({} : Download)) :=
    ⟨otaInv_init e, fun hne => absurd rfl hne, fun hs => by cases hs⟩
  have hcert : Certified ((otaInit, e), ({} : Download)) := fun hf => absurd hf he
  rw [← eachStep_withHistory ((otaInit, e), ({} : Download)) fs]
  exact forall_prefix_iff_eachStep (fun s f h _ _ _ => histInv_step s f h)
    (fun s f h hs _ => certified_step h hs f) hinv hcert (eachStep_true _ fs)

/-- A file of four bytes in one packet is certified. -/
theorem certified_onlyPacket :
    Certified
      (final downloadStep ((otaInit, fun _ => 0), {}) [.start (startOf 4), .data onlyPacket]) :=
  (certified_iff (by decide) _).mpr (by decide) _ (List.prefix_refl _)

/-- **The promise can fail**: of a file of eight bytes only four are received, the packet says that
it is the last one, and the XOR of the four bytes is the CRC of the file. -/
theorem not_certified_early : ¬ ∀ e, flagByte e ≠ ctrlOtaFlagReady → ∀ fs,
    Certified (final downloadStep ((otaInit, e), {}) fs) := by
  intro hall
  have h := hall (fun _ => 0) (by decide) [.start (startOf 8), .data onlyPacket] (by decide)
  exact absurd h.2.2.2.1 (by decide)

end BleHidUart.Ota.Ready
