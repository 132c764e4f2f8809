import BleHidUart.CtrlOta.Transfer

/-!
# What the controller receives

The controller is not part of the firmware. All that is assumed of it is that it appends the payload
of each data frame in the order of arrival and answers each frame with one ACK; the link loses and
reorders nothing, but an ACK may be delivered at any later time. Its other replies are arbitrary.

`delivered_iff`: when an upload reaches `WAIT_COMPLETE`, the controller has exactly the file if and
only if no ACK timeout has fired since the erase was confirmed. A timeout sends the frame again, and
neither frames nor ACKs are numbered, so the controller appends the payload twice.
-/

namespace BleHidUart.CtrlOta.Delivery

open BleHidUart.Board BleHidUart.CtrlOta.Metadata BleHidUart.CtrlOta.Machine
open BleHidUart.CtrlOta.Moves BleHidUart.CtrlOta.Transfer BleHidUart.Lib.Memory BleHidUart.Lib.Run

/-! ### The controller and the link -/

/-- The bytes the controller has appended since its erase-OK, and the ACKs it has sent that are not
delivered yet. -/
structure Controller where
  appended : List UInt8 := []
  acks : ℕ := 0
  deriving DecidableEq

/-- The erase-OK that starts a transfer. -/
def StartsTransfer (g : CtrlOtaCtx) (i : CtrlEvent) : Prop :=
  IsReply ctrlCmdFlashEraseOk i ∧ (g.state = .sendRequest ∨ g.state = .waitConfirm)

instance (g : CtrlOtaCtx) (i : CtrlEvent) : Decidable (StartsTransfer g i) :=
  inferInstanceAs (Decidable (_ ∧ (_ ∨ _)))

theorem not_startsTransfer_ack (g : CtrlOtaCtx) (now : UInt32) :
    ¬ StartsTransfer g (.reply ctrlCmdDataAck now) := fun h =>
  absurd ((isReply_reply _ _ _).mp h.1) (by decide)

/-- The controller after an event: it has erased its flash, or it has received the frames. -/
def Controller.receive (k : Controller) (g : CtrlOtaCtx) (i : CtrlEvent) (fx : List Effect) :
    Controller where
  appended := if StartsTransfer g i then [] else k.appended ++ ((dataFrames fx).map payload).flatten
  acks := k.acks - (if IsReply ctrlCmdDataAck i then 1 else 0) + (dataFrames fx).length

/-- The firmware with the controller. An ACK can only be delivered if one is on its way. -/
def linkStep (s : (CtrlOtaCtx × Eeprom) × Controller) (i : CtrlEvent) :
    ((CtrlOtaCtx × Eeprom) × Controller) × List Effect :=
  if IsReply ctrlCmdDataAck i ∧ s.2.acks = 0 then (s, [])
  else (((ctrlStep s.1 i).1, s.2.receive s.1.1 i (ctrlStep s.1 i).2), (ctrlStep s.1 i).2)

/-- Whether the ACK timeout has fired since the transfer started. -/
def recordTimeout (late : Bool) (s : (CtrlOtaCtx × Eeprom) × Controller) (i : CtrlEvent)
    (_ : List Effect) (_ : (CtrlOtaCtx × Eeprom) × Controller) : Bool :=
  if TimesOut s.1.1 i then true else if StartsTransfer s.1.1 i then false else late

/-- The firmware with the controller and this history. -/
abbrev deliveryStep : ((CtrlOtaCtx × Eeprom) × Controller) × Bool → CtrlEvent →
    (((CtrlOtaCtx × Eeprom) × Controller) × Bool) × List Effect :=
  withHistory linkStep recordTimeout

/-! ### The invariant of a transfer -/

/-- The number of bytes the controller should have. -/
def sentBytes (g : CtrlOtaCtx) : ℕ :=
  if g.state = .waitDataAck then (ctrlOtaAdvanceData g).sentLength.toNat else g.sentLength.toNat

/-- A transfer is under way. -/
def InTransfer (g : CtrlOtaCtx) : Prop :=
  g.state = .sendData ∨ g.state = .waitDataAck ∨ g.state = .waitComplete

/-- The controller has what it should have, or more than that after a timeout. -/
def Delivered (e : Eeprom) (g : CtrlOtaCtx) (k : Controller) : Bool → Prop
  | false => k.appended = slice e 0 (sentBytes g)
  | true => sentBytes g < k.appended.length

/-- **The invariant** of the deliveries, for the EEPROM `e` of the boot. -/
structure DeliveryInv (e : Eeprom) (s : ((CtrlOtaCtx × Eeprom) × Controller) × Bool) : Prop where
  ctrl : CtrlInv s.1.1.1
  length : s.1.1.1.fileLength.toNat ≤ flagAddr
  image : ∀ a, a < flagAddr → s.1.1.2 a = e a
  delivered : InTransfer s.1.1.1 → Delivered e s.1.1.1 s.1.2 s.2

variable {e ee : Eeprom} {g g' : CtrlOtaCtx} {k : Controller} {i : CtrlEvent} {fx : List Effect}
  {late : Bool}

theorem Delivered.congr (h : Delivered e g k late) {k' : Controller}
    (hs : sentBytes g' = sentBytes g) (hk : k'.appended = k.appended) : Delivered e g' k' late := by
  cases late with
  | false => exact hk.trans (by rw [hs]; exact h)
  | true =>
    have hlt : sentBytes g < k.appended.length := h
    have hgoal : sentBytes g' < k'.appended.length := by rwa [hs, hk]
    exact hgoal

theorem sentBytes_of_ne (h : g.state ≠ .waitDataAck) : sentBytes g = g.sentLength.toNat := if_neg h

theorem sentBytes_waiting (h : g.state = .waitDataAck) :
    sentBytes g = (ctrlOtaAdvanceData g).sentLength.toNat := if_pos h

theorem appended_quiet (hfx : dataFrames fx = []) (hno : ¬ StartsTransfer g i) :
    (k.receive g i fx).appended = k.appended := by
  simp [Controller.receive, if_neg hno, hfx]

theorem Delivered.send (h : CtrlInv g) (hlen : g.fileLength.toNat ≤ flagAddr)
    (himg : ∀ a, a < flagAddr → ee a = e a) (hs : g.state = .sendData)
    (hd : Delivered e g k late) (now : UInt32) :
    Delivered e { g with state := .waitDataAck, lastRequestTime := now }
      (k.receive g (.tick now) [ctrlOtaSendDataFrame g ee]) late := by
  have hbytes : chunkBytes g ee = chunkBytes g e := by
    have hle := h.sent_le
    have hchunk := toNat_ctrlOtaChunk h
    rw [chunkBytes_eq h hlen, chunkBytes_eq h hlen]
    exact slice_congr fun a _ ha => himg a (by omega)
  have happ : (k.receive g (.tick now) [ctrlOtaSendDataFrame g ee]).appended =
      k.appended ++ chunkBytes g e := by
    have hno : ¬ StartsTransfer g (.tick now) := fun h => h.1
    simp [Controller.receive, if_neg hno, hbytes]
  have hadv := slice_advance h hlen e
  have hold : sentBytes g = g.sentLength.toNat := sentBytes_of_ne (by simp [hs])
  have hnew : sentBytes { g with state := .waitDataAck, lastRequestTime := now } =
      (ctrlOtaAdvanceData g).sentLength.toNat := sentBytes_waiting rfl
  cases late with
  | false =>
    have hd' : k.appended = slice e 0 (sentBytes g) := hd
    unfold Delivered
    rw [happ, hd', hold, hnew, hadv]
  | true =>
    have hd' : sentBytes g < k.appended.length := hd
    have hl := congrArg List.length hadv
    rw [length_slice, List.length_append, length_slice] at hl
    unfold Delivered
    rw [happ, hnew, hl, List.length_append]
    omega

theorem Delivered.timeout (h : CtrlInv g) (hs : g.state = .waitDataAck) (hd : Delivered e g k late)
    (now : UInt32) :
    Delivered e { g with state := .sendData } (k.receive g (.tick now) []) true := by
  have hpos := chunk_pos h (h.pending hs)
  have hadv := toNat_advance h
  have hold := sentBytes_waiting hs
  have hnew : sentBytes { g with state := .sendData } = g.sentLength.toNat :=
    sentBytes_of_ne (by simp)
  have happ : (k.receive g (.tick now) []).appended = k.appended :=
    appended_quiet rfl fun h => h.1
  have hle : sentBytes g ≤ k.appended.length := by
    cases late with
    | false =>
      have hd' : k.appended = slice e 0 (sentBytes g) := hd
      rw [hd', length_slice]
    | true => exact le_of_lt hd
  unfold Delivered
  rw [happ, hnew]
  omega

theorem recordTimeout_quiet {s : (CtrlOtaCtx × Eeprom) × Controller}
    {s' : (CtrlOtaCtx × Eeprom) × Controller} (ht : ¬ TimesOut s.1.1 i)
    (hno : ¬ StartsTransfer s.1.1 i) : recordTimeout late s i fx s' = late := by
  unfold recordTimeout
  rw [if_neg ht, if_neg hno]

theorem Delivered.move (hm : CtrlMove g ee i g' fx) (h : CtrlInv g)
    (hlen : g.fileLength.toNat ≤ flagAddr) (himg : ∀ a, a < flagAddr → ee a = e a)
    (hd : InTransfer g → Delivered e g k late) (hin : InTransfer g') :
    Delivered e g' (k.receive g i fx)
      (if TimesOut g i then true else if StartsTransfer g i then false else late) := by
  have hfree : ∀ {now : UInt32}, ¬ StartsTransfer g (.tick now) := fun h => h.1
  cases hm with
  | stay i hp =>
    have hno : ¬ StartsTransfer g i := by
      rintro ⟨-, hs⟩
      rcases hin with h' | h' | h' <;> simp [h'] at hs
    rw [if_neg hp.timeout, if_neg hno]
    exact (hd hin).congr rfl (appended_quiet rfl hno)
  | failed now hs => rcases hin with h' | h' | h' <;> simp [hs] at h'
  | request now hs => rcases hin with h' | h' | h' <;> simp [hs] at h'
  | finish now hs hl =>
    rw [if_neg (not_timesOut (by simp [hs])), if_neg hfree]
    refine (hd (.inl hs)).congr ?_ (appended_quiet rfl hfree)
    rw [sentBytes_of_ne (by simp), sentBytes_of_ne (by simp [hs])]
  | send now hs hne =>
    rw [if_neg (not_timesOut (by simp [hs])), if_neg hfree]
    exact Delivered.send h hlen himg hs (hd (.inl hs)) now
  | timeout now hs ht =>
    have htick : TimesOut g (.tick now) := ⟨hs, ht⟩
    rw [if_pos htick]
    exact Delivered.timeout h hs (hd (.inr (.inl hs))) now
  | restart now hs => rcases hin with h' | h' | h' <;> simp at h'
  | confirm now hs => rcases hin with h' | h' | h' <;> simp at h'
  | erased now hs =>
    have hst : StartsTransfer g (.reply ctrlCmdFlashEraseOk now) := ⟨rfl, hs⟩
    rw [if_neg (show ¬ TimesOut g (.reply _ now) from id), if_pos hst]
    unfold Delivered
    rw [sentBytes_of_ne (by simp), h.start hs]
    simp [Controller.receive, if_pos hst]
  | ackLast now hs hl =>
    have hno := not_startsTransfer_ack g now
    rw [if_neg (show ¬ TimesOut g (.reply _ now) from id), if_neg hno]
    refine (hd (.inr (.inl hs))).congr ?_ (appended_quiet rfl hno)
    rw [sentBytes_of_ne (by simp), sentBytes_waiting hs]
  | ackMore now hs hl =>
    have hno := not_startsTransfer_ack g now
    rw [if_neg (show ¬ TimesOut g (.reply _ now) from id), if_neg hno]
    refine (hd (.inr (.inl hs))).congr ?_ (appended_quiet rfl hno)
    rw [sentBytes_of_ne (by simp), sentBytes_waiting hs]
  | success | crcFail | refused => rcases hin with h' | h' | h' <;> simp at h'

/-- **Every event keeps the invariant**, also an ACK that is not there. -/
theorem deliveryInv_step (s : ((CtrlOtaCtx × Eeprom) × Controller) × Bool) (i : CtrlEvent)
    (h : DeliveryInv e s) : DeliveryInv e (deliveryStep s i).1 := by
  have hm := ctrlHandle_move s.1.1.1 s.1.1.2 i
  by_cases hack : IsReply ctrlCmdDataAck i ∧ s.1.2.acks = 0
  · have hstep : linkStep s.1 i = (s.1, []) := if_pos hack
    have hrec : recordTimeout s.2 s.1 i [] s.1 = s.2 := by
      cases i with
      | tick now => exact absurd hack.1 (isReply_tick _ _)
      | reply cmd now =>
        obtain rfl : cmd = ctrlCmdDataAck := hack.1
        exact recordTimeout_quiet id (not_startsTransfer_ack _ now)
    have hnext : (deliveryStep s i).1 = s := by
      refine Prod.ext ?_ ?_
      · rw [withHistory_fst, hstep]
      · rw [withHistory_snd, hstep, hrec]
    rw [hnext]
    exact h
  · have hstep : linkStep s.1 i = (((ctrlStep s.1.1 i).1,
        s.1.2.receive s.1.1.1 i (ctrlStep s.1.1 i).2), (ctrlStep s.1.1 i).2) := if_neg hack
    have hlen := h.length
    refine ⟨?_, ?_, ?_, ?_⟩ <;> rw [withHistory_fst, hstep]
    · exact h.ctrl.move hm
    · rw [← (move_file hm).1] at hlen
      exact hlen
    · intro a ha
      rw [← h.image a ha]
      exact applyEffects_move_of_lt hm ha
    · intro hin
      exact Delivered.move hm h.ctrl hlen h.image h.delivered hin

/-- **The controller has exactly the file at `WAIT_COMPLETE` if and only if no ACK timeout has fired
since the erase was confirmed.** -/
theorem delivered_iff {e : Eeprom} (hlen : (ctrlOtaInit e).fileLength.toNat ≤ flagAddr)
    (is : List CtrlEvent) :
    let s := final deliveryStep (((ctrlOtaInit e, e), {}), false) is
    s.1.1.1.state = .waitComplete →
      (s.1.2.appended = slice e 0 s.1.1.1.fileLength.toNat ↔ s.2 = false) := by
  intro s hs
  have hstart : DeliveryInv e (((ctrlOtaInit e, e), {}), false) := by
    refine ⟨ctrlInv_init e, hlen, fun _ _ => rfl, fun hin => ?_⟩
    by_cases hflag : flagByte e = ctrlOtaFlagReady
    · rw [ctrlOtaInit_ready hflag] at hin
      rcases hin with h | h | h <;> cases h
    · rw [ctrlOtaInit_idle hflag] at hin
      rcases hin with h | h | h <;> cases h
  have h : DeliveryInv e s := final_invariant deliveryInv_step hstart is
  have hdone := h.ctrl.done hs
  have hbytes : sentBytes s.1.1.1 = s.1.1.1.fileLength.toNat := by
    rw [sentBytes_of_ne (by simp [hs]), hdone]
  have hd := h.delivered (.inr (.inr hs))
  constructor
  · intro happ
    by_contra hlate
    rw [Bool.not_eq_false] at hlate
    rw [hlate] at hd
    have hlt : sentBytes s.1.1.1 < s.1.2.appended.length := hd
    rw [happ, length_slice, hbytes] at hlt
    exact absurd hlt (lt_irrefl _)
  · intro hlate
    rw [hlate] at hd
    have heq : s.1.2.appended = slice e 0 (sentBytes s.1.1.1) := hd
    rw [heq, hbytes]

/-- Without a timeout the controller gets the four bytes of the file, although the ACK is late. -/
theorem delivered_sample : (final linkStep ((ctrlOtaInit sampleEeprom, sampleEeprom), {})
    [.reply 0x17 50, .tick 60, .tick 550, .reply 0x0B 555]).2.appended = [1, 2, 3, 4] := by
  have h := (delivered_iff (e := sampleEeprom) (by decide)
    [.reply 0x17 50, .tick 60, .tick 550, .reply 0x0B 555] (by decide)).mpr (by decide)
  rw [final_withHistory] at h
  exact h.trans (by decide)

/-- **A chunk can be appended twice**: the ACK takes more than 500 ms, the frame goes out again, and
the upload goes on to `WAIT_COMPLETE`. -/
theorem not_delivered_late : ¬ ∀ e, (ctrlOtaInit e).fileLength.toNat ≤ flagAddr → ∀ is,
    (final linkStep ((ctrlOtaInit e, e), {}) is).1.1.state = .waitComplete →
      (final linkStep ((ctrlOtaInit e, e), {}) is).2.appended =
        slice e 0 (final linkStep ((ctrlOtaInit e, e), {}) is).1.1.fileLength.toNat := by
  intro hall
  have h := hall sampleEeprom (by decide)
    [.reply 0x17 50, .tick 60, .tick 560, .tick 565, .reply 0x0B 570] (by decide)
  exact absurd h (by decide)

end BleHidUart.CtrlOta.Delivery
