import BleHidUart.CtrlOta.Transfer

/-!
# The percentages reported to the app

Each ACK handled in `WAIT_DATA_ACK` reports the sent length after it, as a percentage of the file
length in one byte. With a file that fits the image area the product `sent * 100` does not wrap and
the quotient fits the byte (`toNat_pct`), so the report is the rounded-down percentage. The sent
length only falls when a tick leaves `ERROR` for a new transfer: between two such ticks the reports
do not fall either.
-/

namespace BleHidUart.CtrlOta.Percent

open BleHidUart.Board BleHidUart.CtrlOta.Metadata BleHidUart.CtrlOta.Machine
open BleHidUart.CtrlOta.Moves BleHidUart.CtrlOta.Transfer BleHidUart.Lib.Run BleHidUart.Lib.Word

/-! ### Reports -/

/-- The percentages among the notifications. -/
def reports (fx : List Effect) : List UInt8 :=
  (notifications fx).filterMap fun n =>
    if byteAt n.1 2 = ctrlOtaV3Progress then some (byteAt n.1 4) else none

/-- The percentage of `sent` bytes of a file of `len` bytes, rounded down. -/
def percent (len sent : ℕ) : ℕ := 100 * sent / len

/-- What a step from `g` to `g'` reports in the upload of a file of `len` bytes: an ACK in
`WAIT_DATA_ACK` reports the percentage of the sent length after it, nothing else reports one, and an
ACK reports `100` exactly if it completes the image and moves the machine to `WAIT_COMPLETE`. -/
structure Reports (len : ℕ) (g : CtrlOtaCtx) (i : CtrlEvent) (g' : CtrlOtaCtx) (fx : List Effect) :
    Prop where
  faithful : ∀ p ∈ reports fx, p.toNat = percent len g'.sentLength.toNat ∧ p.toNat ≤ 100
  acked : reports fx ≠ [] ↔ IsReply ctrlCmdDataAck i ∧ g.state = .waitDataAck
  complete : IsReply ctrlCmdDataAck i →
    (100 ∈ reports fx ↔
      g'.sentLength.toNat = len ∧ g.state ≠ .waitComplete ∧ g'.state = .waitComplete)

/-- The event is a tick that starts the transfer over. -/
def Restarts (s : CtrlOtaCtx × Eeprom) : CtrlEvent → Prop
  | .tick _ => s.1.state = .error
  | .reply _ _ => False

instance (s : CtrlOtaCtx × Eeprom) : (i : CtrlEvent) → Decidable (Restarts s i)
  | .tick _ => inferInstanceAs (Decidable (s.1.state = .error))
  | .reply _ _ => .isFalse id

@[simp] theorem reports_append (fx gx : List Effect) :
    reports (fx ++ gx) = reports fx ++ reports gx := by
  rw [reports, notifications_append, List.filterMap_append]
  rfl

theorem reports_result (r : UInt8) : reports [ctrlOtaNotifyResult r] = [] := rfl

theorem reports_writeFlag (flag : UInt8) : reports (writeFlag flag) = [] := by
  rw [reports, notifications_writeFlag]
  rfl

/-- The byte of the report. -/
def pct (sent total : UInt32) : UInt8 := if total = 0 then 0 else ((sent * 100) / total).toUInt8

theorem reports_progress (sent total : UInt32) :
    reports [ctrlOtaNotifyProgress sent total] = [pct sent total] := rfl

/-! ### The arithmetic of a report -/

theorem percent_le {len sent : ℕ} (h : sent ≤ len) : percent len sent ≤ 100 :=
  Nat.div_le_of_le_mul (by rw [Nat.mul_comm len]; exact Nat.mul_le_mul_left 100 h)

theorem percent_mono {len sent sent' : ℕ} (h : sent ≤ sent') :
    percent len sent ≤ percent len sent' :=
  Nat.div_le_div_right (Nat.mul_le_mul_left 100 h)

theorem percent_eq_hundred {len sent : ℕ} (hpos : 0 < len) (h : sent ≤ len) :
    percent len sent = 100 ↔ sent = len := by
  constructor
  · intro hfull
    have hsent := Nat.div_mul_le_self (100 * sent) len
    unfold percent at hfull
    rw [hfull] at hsent
    omega
  · rintro rfl
    exact Nat.mul_div_cancel 100 hpos

/-- **Neither the product nor the byte wraps.** -/
theorem toNat_pct {sent total : UInt32} (hpos : 0 < total.toNat) (hle : total.toNat ≤ flagAddr)
    (h : sent.toNat ≤ total.toNat) : (pct sent total).toNat = percent total.toNat sent.toNat := by
  have hne : total ≠ 0 := by
    rintro rfl
    exact absurd hpos (by decide)
  have hmul : (sent * 100).toNat = 100 * sent.toNat := by
    rw [UInt32.toNat_mul, show (100 : UInt32).toNat = 100 from rfl, Nat.mul_comm]
    exact Nat.mod_eq_of_lt (by simp only [flagAddr] at hle; omega)
  have hbyte := percent_le h
  unfold percent at hbyte ⊢
  rw [pct, if_neg hne, UInt32.toNat_toUInt8, UInt32.toNat_div, hmul]
  exact Nat.mod_eq_of_lt (by omega)

/-! ### One step -/

/-- The invariant: the context of an upload of a file of `len` bytes. -/
structure PercentInv (len : ℕ) (g : CtrlOtaCtx) : Prop where
  ctrl : CtrlInv g
  length : g.fileLength.toNat = len
  pos : 0 < len
  le : len ≤ flagAddr

variable {g g' : CtrlOtaCtx} {e : Eeprom} {i : CtrlEvent} {fx : List Effect} {len : ℕ}

theorem PercentInv.move (h : PercentInv len g) (hm : CtrlMove g e i g' fx) : PercentInv len g' :=
  ⟨h.ctrl.move hm, by rw [(move_file hm).1]; exact h.length, h.pos, h.le⟩

theorem reports_quiet (hfx : reports fx = [])
    (hack : ¬ (IsReply ctrlCmdDataAck i ∧ g.state = .waitDataAck))
    (hstate : IsReply ctrlCmdDataAck i → g' = g) : Reports len g i g' fx := by
  refine ⟨fun p hp => ?_, iff_of_false (not_not.mpr hfx) hack, fun hi => ?_⟩
  · rw [hfx] at hp
    exact absurd hp List.not_mem_nil
  · rw [hfx, hstate hi]
    exact iff_of_false List.not_mem_nil fun h => h.2.1 h.2.2

theorem reports_reply {cmd : UInt8} {now : UInt32} (hcmd : cmd ≠ ctrlCmdDataAck)
    (hfx : reports fx = []) : Reports len g (.reply cmd now) g' fx :=
  reports_quiet hfx (fun hi => hcmd hi.1) fun hi => absurd hi hcmd

theorem reports_ack (h : PercentInv len g) (hs : g.state = .waitDataAck) {now : UInt32}
    (hsent : g'.sentLength = (ctrlOtaAdvanceData g).sentLength)
    (hstate : g'.state = .waitComplete ↔ g'.sentLength = g.fileLength) :
    Reports len g (.reply ctrlCmdDataAck now) g'
      [ctrlOtaNotifyProgress (ctrlOtaAdvanceData g).sentLength g.fileLength] := by
  have hle : g'.sentLength.toNat ≤ g.fileLength.toNat := by
    rw [hsent]
    exact h.ctrl.advance_le
  have hlen := h.length
  have hpct : (pct g'.sentLength g.fileLength).toNat = percent len g'.sentLength.toNat := by
    rw [toNat_pct (by rw [hlen]; exact h.pos) (by rw [hlen]; exact h.le) hle, hlen]
  rw [hlen] at hle
  refine ⟨fun p hp => ?_, ?_, fun _ => ?_⟩
  · rw [← hsent, reports_progress] at hp
    rw [List.mem_singleton.mp hp, hpct]
    exact ⟨rfl, percent_le hle⟩
  · rw [reports_progress]
    exact iff_of_true (List.cons_ne_nil _ _) ⟨rfl, hs⟩
  · have hfull : 100 = pct g'.sentLength g.fileLength ↔ percent len g'.sentLength.toNat = 100 := by
      rw [← UInt8.toNat_inj, hpct]
      exact eq_comm
    have hwait : g.state ≠ .waitComplete := by
      rw [hs]
      decide
    rw [← hsent, reports_progress, List.mem_singleton, hfull, percent_eq_hundred h.pos hle]
    refine ⟨fun heq => ⟨heq, hwait, hstate.mpr (UInt32.toNat_inj.mp ?_)⟩, And.left⟩
    rw [heq, hlen]

/-- **Every move reports what it should.** -/
theorem reports_move (h : PercentInv len g) (hm : CtrlMove g e i g' fx) :
    Reports len g i g' fx := by
  cases hm with
  | stay i hp => exact reports_quiet rfl hp.ack fun _ => rfl
  | failed | request | finish | send | timeout | restart =>
    exact reports_quiet rfl (fun hi => hi.1) fun hi => absurd hi (isReply_tick _ _)
  | confirm | erased | crcFail => exact reports_reply (by decide) rfl
  | success now =>
    refine reports_reply (by decide) ?_
    rw [← List.singleton_append, reports_append, reports_result, reports_writeFlag]
    rfl
  | refused cmd now hc =>
    refine reports_reply ?_ rfl
    rcases hc with ⟨rfl, -⟩ | rfl <;> decide
  | ackLast now hs hl => exact reports_ack h hs rfl (iff_of_true rfl hl)
  | ackMore now hs hl => exact reports_ack h hs rfl (iff_of_false (by simp) hl)

/-- The sent length only falls when the transfer starts over. -/
theorem sentLength_le (h : CtrlInv g) (hm : CtrlMove g e i g' fx) (hi : ¬ Restarts (g, e) i) :
    g.sentLength.toNat ≤ g'.sentLength.toNat := by
  cases hm with
  | restart now hs => exact absurd hs hi
  | ackLast | ackMore =>
    rw [toNat_advance h]
    exact Nat.le_add_right _ _
  | stay | failed | request | finish | send | timeout | confirm | erased | success | crcFail
  | refused => exact le_rfl

/-! ### Runs -/

theorem percentInv_init {e : Eeprom} (hready : flagByte e = ctrlOtaFlagReady)
    (hpos : 0 < (storedLength e).toNat) (hle : (storedLength e).toNat ≤ flagAddr) :
    PercentInv (storedLength e).toNat (ctrlOtaInit e) := by
  refine ⟨ctrlInv_init e, ?_, hpos, hle⟩
  rw [ctrlOtaInit_ready hready]

theorem percentInv_step (s : CtrlOtaCtx × Eeprom) (i : CtrlEvent) (h : PercentInv len s.1) :
    PercentInv len (ctrlStep s i).1.1 := h.move (ctrlHandle_move s.1 s.2 i)

/-- Without a restart the reports of a run are at least the percentage it starts with, and they do
not fall. -/
theorem reports_run {s : CtrlOtaCtx × Eeprom} (h : PercentInv len s.1) {is : List CtrlEvent}
    (hr : EachStep ctrlStep (fun s i => ¬ Restarts s i) s is) :
    (∀ p ∈ reports (outs ctrlStep s is), percent len s.1.sentLength.toNat ≤ p.toNat) ∧
      (reports (outs ctrlStep s is)).Pairwise (· ≤ ·) := by
  induction is generalizing s with
  | nil => exact ⟨fun p hp => absurd hp List.not_mem_nil, List.Pairwise.nil⟩
  | cons i is ih =>
    obtain ⟨hge, hpair⟩ := ih (percentInv_step s i h) hr.2
    have hm := ctrlHandle_move s.1 s.2 i
    have hsent : percent len s.1.sentLength.toNat ≤
        percent len (ctrlStep s i).1.1.sentLength.toNat :=
      percent_mono (sentLength_le h.ctrl hm hr.1)
    have hstep : ∀ p ∈ reports (ctrlStep s i).2,
        p.toNat = percent len (ctrlStep s i).1.1.sentLength.toNat :=
      fun p hp => ((reports_move h hm).faithful p hp).1
    rw [outs_cons, reports_append]
    refine ⟨fun p hp => ?_, List.pairwise_append.mpr ⟨?_, hpair, fun p hp q hq => ?_⟩⟩
    · rcases List.mem_append.mp hp with hp | hp
      · rw [hstep p hp]
        exact hsent
      · exact hsent.trans (hge p hp)
    · -- the reports of one step are all the same
      refine List.pairwise_of_forall_mem_list fun p hp q hq => ?_
      rw [UInt8.le_iff_toNat_le, hstep p hp, hstep q hq]
    · rw [UInt8.le_iff_toNat_le, hstep p hp]
      exact hge q hq

/-- **Progress reports are faithful**: in every run of the upload of a file that fits the image area
each step reports what it should, and from any point on the reports do not fall before the transfer
starts over. -/
theorem progress_faithful {e : Eeprom} (hready : flagByte e = ctrlOtaFlagReady)
    (hpos : 0 < (storedLength e).toNat) (hle : (storedLength e).toNat ≤ flagAddr)
    (xs ys : List CtrlEvent) :
    EachStep ctrlStep (fun s i => Reports (storedLength e).toNat s.1 i (ctrlStep s i).1.1
        (ctrlStep s i).2) (ctrlOtaInit e, e) (xs ++ ys) ∧
      (EachStep ctrlStep (fun s i => ¬ Restarts s i) (final ctrlStep (ctrlOtaInit e, e) xs) ys →
        (reports (outs ctrlStep (final ctrlStep (ctrlOtaInit e, e) xs) ys)).Pairwise (· ≤ ·)) := by
  have hinit := percentInv_init hready hpos hle
  constructor
  · exact eachStep_of_invariant (fun s i h _ => percentInv_step s i h)
      (fun s i h _ => reports_move h (ctrlHandle_move s.1 s.2 i)) hinit (eachStep_true _ _)
  · intro hr
    exact (reports_run (final_invariant percentInv_step hinit xs) hr).2

/-- A file of five hundred bytes. -/
def longEeprom : Eeprom := Lib.Memory.store (fun _ => 0) flagAddr (readyRecord 500 0)

/-- Two chunks are sent before the controller reports a wrong CRC, and the transfer starts over. -/
def brokenOff : List CtrlEvent :=
  [.tick 40, .reply 0x17 50, .tick 60, .reply 0x0B 70, .tick 80, .reply 0x0B 90, .reply 0x0D 95,
    .tick 100]

/-- Then all three are sent. -/
def sentAgain : List CtrlEvent :=
  [.tick 140, .reply 0x17 150, .tick 160, .reply 0x0B 170, .tick 180, .reply 0x0B 190, .tick 200,
    .reply 0x0B 210]

/-- The reports fall once, where the transfer starts over. -/
theorem progress_faithful_restart :
    reports (outs ctrlStep (ctrlOtaInit longEeprom, longEeprom) (brokenOff ++ sentAgain)) =
        [40, 80, 40, 80, 100] ∧
      (reports (outs ctrlStep (final ctrlStep (ctrlOtaInit longEeprom, longEeprom) brokenOff)
        sentAgain)).Pairwise (· ≤ ·) :=
  ⟨by decide +kernel, (progress_faithful (e := longEeprom) (by decide) (by decide) (by decide)
    brokenOff sentAgain).2 (by decide +kernel)⟩

end BleHidUart.CtrlOta.Percent
