import BleHidUart.Ota.Start
import Mathlib.Data.List.Infix

/-!
# Rejected packets

A packet with the wrong number or a wrong CRC is rejected; the handler counts the rejected packets
in a row and gives up at the tenth. `rejects_leave_no_trace`: up to there the session is the one
without the rejected packets, and it is given up exactly there.
-/

namespace BleHidUart.Ota.Rejected

open BleHidUart.Board BleHidUart.CtrlOta.Metadata BleHidUart.Lib.Run BleHidUart.Ota.Handlers
open BleHidUart.Ota.Moves BleHidUart.Ota.Session BleHidUart.Ota.Start

/-- The packet is rejected: a session is open, and the number or the CRC of the packet is wrong. -/
def Rejects (c : OtaContext) (d : DataFrame) : Prop := c.state = .receiving ∧ ¬ Accepts c d

instance (c : OtaContext) (d : DataFrame) : Decidable (Rejects c d) :=
  inferInstanceAs (Decidable (c.state = .receiving ∧ ¬ Accepts c d))

/-- The app side on the packets of a session. -/
abbrev dataStep (s : OtaContext × Eeprom) (d : DataFrame) : (OtaContext × Eeprom) × List Effect :=
  otaStep s (.data d)

/-- The number of packets rejected in a row. -/
def recordRow (row : ℕ) (s : OtaContext × Eeprom) (d : DataFrame) (_ : List Effect)
    (_ : OtaContext × Eeprom) : ℕ :=
  if Rejects s.1 d then row + 1 else if Accepts s.1 d then 0 else row

abbrev rowStep : (OtaContext × Eeprom) × ℕ → DataFrame →
    ((OtaContext × Eeprom) × ℕ) × List Effect :=
  withHistory dataStep recordRow

/-- The packets of a run that are not rejected. -/
abbrev kept : OtaContext × Eeprom → List DataFrame → List DataFrame :=
  audible dataStep fun s d => Rejects s.1 d

/-- Some packet of the run sets the ready flag. -/
def Committed (s : OtaContext × Eeprom) (ds : List DataFrame) : Prop :=
  ¬ EachStep dataStep (fun s d => ¬ Commits s.1 d) s ds

/-- The session is over after the packet, which is not its last one. -/
def GivenUp (s : OtaContext × Eeprom) (d : DataFrame) : Prop :=
  s.1.state = .receiving ∧ (dataStep s d).1.1.state ≠ .receiving ∧
    ¬ (Accepts s.1 d ∧ hasMore d = 0)

/-- The context but for `resend_count`. -/
abbrev forget (c : OtaContext) : OtaContext := { c with resendCount := 0 }

/-! ### The handler does not look at the counter unless it rejects -/

theorem forget_congr {c c' : OtaContext} (h : forget c = forget c') :
    ∃ r, c' = { c with resendCount := r } := by
  obtain ⟨st, len, crc, rec, seq, addr, r, f⟩ := c
  obtain ⟨st', len', crc', rec', seq', addr', r', f'⟩ := c'
  simp only [OtaContext.mk.injEq] at h
  obtain ⟨rfl, rfl, rfl, rfl, rfl, rfl, -, rfl⟩ := h
  exact ⟨r', rfl⟩

theorem accepts_forget {c c' : OtaContext} (h : forget c = forget c') (d : DataFrame) :
    Accepts c d ↔ Accepts c' d := by
  obtain ⟨r, rfl⟩ := forget_congr h
  exact ⟨fun ha => ⟨ha.state, ha.seq, ha.crc⟩, fun ha => ⟨ha.state, ha.seq, ha.crc⟩⟩

theorem commits_forget {c c' : OtaContext} (h : forget c = forget c') (d : DataFrame) :
    Commits c d ↔ Commits c' d := by
  have hacc := accepts_forget h d
  obtain ⟨r, rfl⟩ := forget_congr h
  exact ⟨fun hc => ⟨hacc.mp hc.accepts, hc.last, hc.crc⟩,
    fun hc => ⟨hacc.mpr hc.accepts, hc.last, hc.crc⟩⟩

theorem otaHandle_accepted {c : OtaContext} {d : DataFrame} (ha : Accepts c d) :
    otaHandle c (.data d) =
      if hasMore d = 0 then
        ((otaLastPacket (afterStore c d) (seqOf d)).1, eepromWrite c.eepromAddr (stored c d) ++
          (otaLastPacket (afterStore c d) (seqOf d)).2)
      else (afterStore c d, eepromWrite c.eepromAddr (stored c d) ++
        [otaSendDataAck (seqOf d) otaAckContinue]) := by
  rw [otaHandle_data, if_neg (not_not.mpr ha.state), if_neg (not_not.mpr ha.seq),
    if_neg (not_not.mpr ha.crc)]

/-- A packet that is not rejected does the same whatever the counter says. -/
theorem otaHandle_data_forget {c c' : OtaContext} (h : forget c = forget c') {d : DataFrame}
    (hd : ¬ Rejects c d) : forget (otaHandle c (.data d)).1 = forget (otaHandle c' (.data d)).1 ∧
      (otaHandle c (.data d)).2 = (otaHandle c' (.data d)).2 := by
  by_cases hs : c.state = .receiving
  · have ha : Accepts c d := by
      by_contra hna
      exact hd ⟨hs, hna⟩
    rw [otaHandle_accepted ha, otaHandle_accepted ((accepts_forget h d).mp ha)]
    obtain ⟨r, rfl⟩ := forget_congr h
    split_ifs <;> exact ⟨rfl, rfl⟩
  · rw [otaHandle_data, otaHandle_data, if_pos hs]
    obtain ⟨r, rfl⟩ := forget_congr h
    rw [if_pos hs]
    exact ⟨rfl, rfl⟩

/-- The two runs: the same EEPROM, and the same context but for the counter. -/
def SameSession (s t : OtaContext × Eeprom) : Prop := forget s.1 = forget t.1 ∧ s.2 = t.2

theorem sameSession_step {s t : OtaContext × Eeprom} {d : DataFrame} (h : SameSession s t)
    (hd : ¬ Rejects s.1 d) : SameSession (dataStep s d).1 (dataStep t d).1 := by
  obtain ⟨hctx, hfx⟩ := otaHandle_data_forget h.1 hd
  refine ⟨hctx, ?_⟩
  unfold dataStep otaStep
  dsimp only
  rw [hfx, h.2]

/-! ### Counting -/

/-- The counter of the context is the number of packets rejected in a row. -/
structure RowInv (t : (OtaContext × Eeprom) × ℕ) : Prop where
  ota : OtaInv t.1.1 t.1.2
  count : t.1.1.state = .receiving → t.1.1.resendCount.toNat = t.2
  lt : t.1.1.state = .receiving → t.2 < otaMaxResendCount.toNat
  file : t.1.1.state = .receiving → t.1.1.fileLength ≠ 0

theorem toNat_succ_resend {r : UInt8} (h : r.toNat < otaMaxResendCount.toNat) :
    (r + 1).toNat = r.toNat + 1 := by
  have hmax : otaMaxResendCount.toNat = 10 := rfl
  have hone : (1 : UInt8).toNat = 1 := rfl
  rw [UInt8.toNat_add, hone]
  omega

theorem rowInv_step (t : (OtaContext × Eeprom) × ℕ) (d : DataFrame) (h : RowInv t) :
    RowInv (rowStep t d).1 := by
  have hota : OtaInv (rowStep t d).1.1.1 (rowStep t d).1.1.2 := otaInv_step t.1 (.data d) h.ota
  suffices hrecv : (rowStep t d).1.1.1.state = .receiving →
      (rowStep t d).1.1.1.resendCount.toNat = (rowStep t d).1.2 ∧
        (rowStep t d).1.2 < otaMaxResendCount.toNat ∧ (rowStep t d).1.1.1.fileLength ≠ 0 from
    ⟨hota, fun hs => (hrecv hs).1, fun hs => (hrecv hs).2.1, fun hs => (hrecv hs).2.2⟩
  clear hota
  have hm := otaHandle_move t.1.1 (.data d)
  simp only [withHistory_fst, withHistory_snd, dataStep, otaStep, recordRow]
  generalize (otaHandle t.1.1 (.data d)).1 = c' at hm ⊢
  generalize (otaHandle t.1.1 (.data d)).2 = fx at hm ⊢
  intro hs'
  cases hm with
  | dataIgnored _ hs => exact absurd hs' hs
  | dataResend _ seq hs hna hlt =>
    rw [if_pos ⟨hs, hna⟩]
    have hsucc : (t.1.1.resendCount + 1).toNat = t.1.1.resendCount.toNat + 1 :=
      toNat_succ_resend (by rw [h.count hs]; exact h.lt hs)
    have hlt' := UInt8.lt_iff_toNat_lt.mp hlt
    rw [hsucc, h.count hs] at hlt'
    dsimp only
    rw [hsucc, h.count hs]
    exact ⟨rfl, hlt', h.file hs⟩
  | dataContinued _ ha hmore =>
    rw [if_neg fun hr => hr.2 ha, if_pos ha]
    exact ⟨rfl, by decide, h.file ha.state⟩
  | dataAborted | dataCommitted | dataMismatched => cases hs'

theorem sameSession_reject {s : OtaContext × Eeprom} {t : OtaContext × Eeprom} {d : DataFrame}
    (h : SameSession s t) (hlt : s.1.resendCount + 1 < otaMaxResendCount) (hd : Rejects s.1 d) :
    SameSession (dataStep s d).1 t := by
  have hm := otaHandle_move s.1 (.data d)
  unfold dataStep otaStep
  dsimp only
  generalize (otaHandle s.1 (.data d)).1 = c' at hm ⊢
  generalize (otaHandle s.1 (.data d)).2 = fx at hm ⊢
  cases hm with
  | dataIgnored _ hs => exact absurd hd.1 hs
  | dataResend => exact h
  | dataAborted _ _ _ _ hle => exact absurd hlt (UInt8.not_lt.mpr hle)
  | dataContinued _ ha | dataMismatched _ ha => exact absurd ha hd.2
  | dataCommitted _ hc => exact absurd hc.accepts hd.2

theorem abort_of_reject {s : OtaContext × Eeprom} {d : DataFrame}
    (hle : otaMaxResendCount ≤ s.1.resendCount + 1) (hd : Rejects s.1 d) :
    ∃ seq, dataStep s d = ((otaReset, s.2), [otaSendDataAck seq otaAckFail]) := by
  have hm := otaHandle_move s.1 (.data d)
  unfold dataStep otaStep
  generalize (otaHandle s.1 (.data d)).1 = c' at hm ⊢
  generalize (otaHandle s.1 (.data d)).2 = fx at hm ⊢
  cases hm with
  | dataIgnored _ hs => exact absurd hd.1 hs
  | dataResend _ _ _ _ hlt => exact absurd hlt (UInt8.not_lt.mpr hle)
  | dataAborted _ seq => exact ⟨seq, rfl⟩
  | dataContinued _ ha | dataMismatched _ ha => exact absurd ha hd.2
  | dataCommitted _ hc => exact absurd hc.accepts hd.2

theorem limit_iff {t : (OtaContext × Eeprom) × ℕ} (h : RowInv t) (hs : t.1.1.state = .receiving) :
    otaMaxResendCount ≤ t.1.1.resendCount + 1 ↔ t.2 + 1 = otaMaxResendCount.toNat := by
  have hlt := h.lt hs
  rw [UInt8.le_iff_toNat_le, toNat_succ_resend (by rw [h.count hs]; exact hlt), h.count hs]
  omega

/-- **A session is given up exactly at the tenth packet rejected in a row.** -/
theorem givenUp_iff {t : (OtaContext × Eeprom) × ℕ} (h : RowInv t) (d : DataFrame) :
    GivenUp t.1 d ↔ Rejects t.1.1 d ∧ t.2 + 1 = otaMaxResendCount.toNat := by
  constructor
  · rintro ⟨hs, hover, hlast⟩
    have hd : Rejects t.1.1 d := by
      refine ⟨hs, fun ha => hover ?_⟩
      have hmore : hasMore d ≠ 0 := fun hm => hlast ⟨ha, hm⟩
      have hnext : (dataStep t.1 d).1.1 = afterStore t.1.1 d := by
        unfold dataStep otaStep
        rw [otaHandle_accepted ha, if_neg hmore]
      rw [hnext]
      exact hs
    refine ⟨hd, (limit_iff h hs).mp (UInt8.not_lt.mp fun hlt => hover ?_)⟩
    have hsame := (sameSession_reject ⟨rfl, rfl⟩ hlt hd : SameSession (dataStep t.1 d).1 t.1).1
    have hstate := congrArg OtaContext.state hsame
    exact hstate.trans hs
  · rintro ⟨hd, hten⟩
    obtain ⟨seq, hstep⟩ := abort_of_reject ((limit_iff h hd.1).mpr hten) hd
    refine ⟨hd.1, ?_, fun ha => hd.2 ha.1⟩
    rw [hstep]
    exact fun hs => by cases hs

/-! ### Sessions -/

theorem rowInv_start {s : OtaContext × Eeprom} (h : OtaInv s.1 s.2) {f : StartFrame}
    (ho : Opens s.1 f) : RowInv ((otaStep s (.start f)).1, 0) := by
  have hnext : (otaStep s (.start f)).1.1 = opened s.1 (startLen f) (startCrc f) := by
    unfold otaStep
    rw [otaHandle_start ho.state, if_pos ho]
  refine ⟨otaInv_step s (.start f) h, ?_, fun _ => Nat.succ_pos 9, ?_⟩
  · rw [hnext]
    exact fun _ => rfl
  · rw [hnext]
    exact fun _ => ho.pos

theorem rowInv_run {t : (OtaContext × Eeprom) × ℕ} (h : RowInv t) (ds : List DataFrame) :
    RowInv (final rowStep t ds) := final_invariant rowInv_step h ds

/-- With less than ten rejected packets in a row every rejected packet is below the limit. -/
theorem eachStep_below {s : OtaContext × Eeprom} (h : RowInv (s, 0)) {ds : List DataFrame}
    (hrow : ∀ xs, xs <+: ds → (final rowStep (s, 0) xs).2 < otaMaxResendCount.toNat) :
    EachStep dataStep (fun s d => Rejects s.1 d →
      s.1.resendCount + 1 < otaMaxResendCount) s ds := by
  refine eachStep_iff_forall.mpr fun xs d ys hds hd => UInt8.not_le.mp fun hle => ?_
  have hinv := rowInv_run h xs
  have hctx : (final rowStep (s, 0) xs).1 = final dataStep s xs := final_withHistory (s, 0) xs
  have hnext := hrow (xs ++ [d]) ⟨ys, by rw [hds, List.append_assoc]; rfl⟩
  rw [← hctx] at hd hle
  have hten := (limit_iff hinv hd.1).mp hle
  rw [final_append, final_cons, final_nil, withHistory_snd, recordRow, if_pos hd, hten] at hnext
  exact absurd hnext (lt_irrefl _)

/-- **Rejected packets leave no trace.** As long as less than ten packets in a row are rejected, a
session ends as it does without the rejected packets; it is given up exactly at the tenth, with one
ACK, the context reset, the EEPROM as it is and no ready flag. -/
theorem rejects_leave_no_trace (e : Eeprom) (gs : List AppFrame) (f : StartFrame)
    (ho : Opens (final otaStep (otaInit, e) gs).1 f) (ds : List DataFrame) :
    let s := (otaStep (final otaStep (otaInit, e) gs) (.start f)).1
    ((∀ xs, xs <+: ds → (final rowStep (s, 0) xs).2 < otaMaxResendCount.toNat) →
      (final dataStep s ds).2 = (final dataStep s (kept s ds)).2 ∧
        forget (final dataStep s ds).1 = forget (final dataStep s (kept s ds)).1 ∧
        (Committed s ds ↔ Committed s (kept s ds))) ∧
    ∀ xs d ys, ds = xs ++ d :: ys →
      let t := final rowStep (s, 0) xs
      (GivenUp t.1 d ↔ Rejects t.1.1 d ∧ t.2 + 1 = otaMaxResendCount.toNat) ∧
        (GivenUp t.1 d → flagByte t.1.2 ≠ ctrlOtaFlagReady ∧
          ∃ seq, dataStep t.1 d = ((otaReset, t.1.2), [otaSendDataAck seq otaAckFail])) := by
  intro s
  have hinv : RowInv (s, 0) := rowInv_start (otaInv_run e gs) ho
  refine ⟨fun hrow => ?_, fun xs d ys _ => ?_⟩
  · have hG := eachStep_below hinv hrow
    have hsilent : ∀ s t d, SameSession s t →
        (Rejects s.1 d → s.1.resendCount + 1 < otaMaxResendCount) → Rejects s.1 d →
        SameSession (dataStep s d).1 t := fun _ _ _ h hlt hd => sameSession_reject h (hlt hd) hd
    have hstep : ∀ s t d, SameSession s t →
        (Rejects s.1 d → s.1.resendCount + 1 < otaMaxResendCount) → ¬ Rejects s.1 d →
        SameSession (dataStep s d).1 (dataStep t d).1 := fun _ _ _ h _ hd => sameSession_step h hd
    have hsame : SameSession (final dataStep s ds) (final dataStep s (kept s ds)) :=
      final_audible hsilent hstep ⟨rfl, rfl⟩ hG
    refine ⟨hsame.2, hsame.1, not_congr ?_⟩
    have hquiet : ∀ (s : OtaContext × Eeprom) (d : DataFrame), Rejects s.1 d → ¬ Commits s.1 d :=
      fun _ _ hd hc => hd.2 hc.accepts
    have hcongr : ∀ (s t : OtaContext × Eeprom) (d : DataFrame), SameSession s t →
        (¬ Commits s.1 d ↔ ¬ Commits t.1 d) := fun _ _ d h => not_congr (commits_forget h.1 d)
    exact eachStep_audible hsilent hstep hquiet hcongr ⟨rfl, rfl⟩ hG
  · have ht := rowInv_run hinv xs
    refine ⟨givenUp_iff ht d, fun hgiven => ?_⟩
    obtain ⟨hd, hten⟩ := (givenUp_iff ht d).mp hgiven
    exact ⟨fun hf => ht.file hd.1 (ht.ota.fresh hf),
      abort_of_reject ((limit_iff ht hd.1).mpr hten) hd⟩

/-- The packet `0` of a longer file, with the content `01 02 03 04`. -/
def firstPacket : DataFrame :=
  ⟨[0x53, 0x35, 0x08, 0x0C, 0, 0, 1, 1, 2, 3, 4, 4], rfl, by decide⟩

/-- A packet sent twice is rejected the second time and changes nothing. -/
theorem duplicate_leaves_no_trace :
    (final dataStep (otaStep (final otaStep (otaInit, fun _ => 0) []) (.start (startOf 8))).1
        [firstPacket, firstPacket]).2 =
      (final dataStep (otaStep (final otaStep (otaInit, fun _ => 0) []) (.start (startOf 8))).1
        (kept (otaStep (final otaStep (otaInit, fun _ => 0) []) (.start (startOf 8))).1
          [firstPacket, firstPacket])).2 := by
  have ho : Opens (final otaStep (otaInit, fun _ => 0) []).1 (startOf 8) := by decide
  refine ((rejects_leave_no_trace (fun _ => 0) [] (startOf 8) ho [firstPacket, firstPacket]).1
    fun xs hxs => ?_).1
  revert xs
  simp only [← List.mem_inits]
  decide

end BleHidUart.Ota.Rejected
