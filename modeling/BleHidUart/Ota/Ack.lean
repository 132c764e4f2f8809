import BleHidUart.Lib.Run
import BleHidUart.Ota.Moves

/-!
# What a data ACK tells the sender

A sender that follows an ACK sends the packet after the one named in it if the result is
`OTA_ACK_CONTINUE`, and the packet named in it if the result is `OTA_ACK_RESEND` (`nextSeq`). The
ACK tells where the receiver is if that packet is the one the receiver waits for (`AckTells`).

The accepting path and the path of a wrong packet CRC fill the ACK so. The path of a wrong sequence
number names the packet that has arrived, not the one that is missing: it is the only one that
misdirects the sender (`ackTells_iff`).
-/

namespace BleHidUart.Ota.Ack

open BleHidUart.Board BleHidUart.CtrlOta.Metadata BleHidUart.Lib.Run BleHidUart.Lib.Word
open BleHidUart.Ota.Handlers BleHidUart.Ota.Moves

/-! ### The packet an ACK asks for -/

/-- The sequence number a sender that follows the ACK sends next. -/
def nextSeq (ack : List UInt8) : Option UInt16 :=
  let q := le16 (byteAt ack 4) (byteAt ack 5)
  if byteAt ack 6 = otaAckContinue then some (q + 1)
  else if byteAt ack 6 = otaAckResend then some q
  else none

/-- Every data ACK the frame is answered with asks for the packet the receiver waits for next, as
long as the session continues. -/
def AckTells (s : OtaContext × Eeprom) (f : AppFrame) : Prop :=
  (otaStep s f).1.1.state = .receiving →
    ∀ n ∈ notifications (otaStep s f).2, byteAt n.1 2 = otaCmdData →
      nextSeq n.1 = some (otaStep s f).1.1.expectedSeq

/-- The frame is no packet with a wrong sequence number that is to be sent again: a packet of a
session has the expected number, or it uses up the resends. -/
def InStep (s : OtaContext × Eeprom) (f : AppFrame) : Prop :=
  ∀ d, f = .data d → s.1.state = .receiving → seqOf d ≠ s.1.expectedSeq →
    otaMaxResendCount ≤ s.1.resendCount + 1

@[simp] theorem notifications_dataAck (seq : UInt16) (result : UInt8) :
    notifications [otaSendDataAck seq result] =
      [([v3FrameHead0, v3FrameHead1, otaCmdData, UInt8.ofNat otaFrameDataAckSize,
        (seq &&& 0xFF).toUInt8, ((seq >>> 8) &&& 0xFF).toUInt8, result], otaFrameDataAckSize)] :=
      rfl

theorem nextSeq_dataAck {seq : UInt16} {result : UInt8} {n : List UInt8 × ℕ}
    (hn : n ∈ notifications [otaSendDataAck seq result]) :
    nextSeq n.1 = if result = otaAckContinue then some (seq + 1)
      else if result = otaAckResend then some seq else none := by
  rw [notifications_dataAck, List.mem_singleton] at hn
  subst hn
  exact congrArg (fun q => if result = otaAckContinue then some (q + 1)
    else if result = otaAckResend then some q else none) (le16_bytes seq)

/-! ### The paths of the handlers -/

theorem notifications_other {c c' : OtaContext} {f : AppFrame} {fx : List Effect}
    (hm : OtaMove c f c' fx) (hf : ∀ d, f ≠ .data d) {n : List UInt8 × ℕ}
    (hn : n ∈ notifications fx) : byteAt n.1 2 ≠ otaCmdData := by
  cases hm with
  | startIgnored => exact absurd hn List.not_mem_nil
  | startRefused | packageRetried | packageRetryRefused | eraseRetried | eraseRetryRefused =>
    have heq := List.mem_singleton.mp hn
    subst heq
    decide
  | startAccepted f =>
    rw [notifications_append, notifications_writeFlag] at hn
    rcases List.mem_pair.mp hn with rfl | rfl <;> decide
  | dataIgnored f | dataResend f | dataAborted f | dataContinued f | dataCommitted f
  | dataMismatched f => exact absurd rfl (hf f)

/-- A reject path asks for the packet it names, unless it closes the session. -/
theorem ackTells_reject {c : OtaContext} {seq : UInt16} (hs : c.state = .receiving) :
    ((otaRejectPacket c seq).1.state = .receiving →
      ∀ n ∈ notifications (otaRejectPacket c seq).2, byteAt n.1 2 = otaCmdData →
        nextSeq n.1 = some (otaRejectPacket c seq).1.expectedSeq) ↔
      (otaMaxResendCount ≤ c.resendCount + 1 ∨ seq = c.expectedSeq) := by
  unfold otaRejectPacket
  by_cases hmax : otaMaxResendCount ≤ c.resendCount + 1
  · simp only [if_pos hmax]
    refine iff_of_true (fun h => ?_) (.inl hmax)
    exact absurd h (by decide)
  · simp only [if_neg hmax]
    constructor
    · intro h
      have hn := h hs _ (List.mem_singleton_self _) rfl
      rw [nextSeq_dataAck (List.mem_singleton_self _)] at hn
      exact .inr (Option.some.inj hn)
    · rintro h - n hn -
      rw [nextSeq_dataAck hn, h.resolve_left hmax]
      rfl

/-- The last packet closes the session, whatever it is answered with. -/
theorem otaLastPacket_closed (c : OtaContext) (seq : UInt16) :
    (otaLastPacket c seq).1 = otaReset := by
  simp only [otaLastPacket]
  split_ifs <;> rfl

theorem ackTells_expected {s : OtaContext × Eeprom} {d : DataFrame} (hs : s.1.state = .receiving)
    (hseq : seqOf d = s.1.expectedSeq) : AckTells s (.data d) := by
  unfold AckTells
  simp only [otaStep]
  rw [otaHandle_data, if_neg (not_not.mpr hs), if_neg (not_not.mpr hseq)]
  by_cases hcrc : PacketCrcOk d
  · rw [if_neg (not_not.mpr hcrc)]
    by_cases hm : hasMore d = 0
    · rw [if_pos hm]
      simp only [otaLastPacket_closed]
      exact fun hopen => absurd hopen (by decide)
    · rw [if_neg hm]
      intro _ n hn _
      rw [notifications_append, notifications_eepromWrite, List.nil_append] at hn
      rw [nextSeq_dataAck hn, if_pos rfl, hseq]
      rfl
  · rw [if_pos hcrc]
    exact (ackTells_reject hs).mpr (.inr rfl)

theorem ackTells_data (s : OtaContext × Eeprom) (d : DataFrame) :
    AckTells s (.data d) ↔ (s.1.state = .receiving → seqOf d ≠ s.1.expectedSeq →
      otaMaxResendCount ≤ s.1.resendCount + 1) := by
  by_cases hs : s.1.state = .receiving
  · by_cases hseq : seqOf d = s.1.expectedSeq
    · exact iff_of_true (ackTells_expected hs hseq) fun _ hne => absurd hseq hne
    · unfold AckTells
      simp only [otaStep]
      rw [otaHandle_data, if_neg (not_not.mpr hs), if_pos hseq, ackTells_reject hs]
      exact ⟨fun h _ _ => h.resolve_right hseq, fun h => .inl (h hs hseq)⟩
  · refine iff_of_true ?_ fun h => absurd h hs
    unfold AckTells
    simp only [otaStep]
    rw [otaHandle_data, if_pos hs]
    exact fun h => absurd h hs

theorem ackTells_other {s : OtaContext × Eeprom} {f : AppFrame} (hf : ∀ d, f ≠ .data d) :
    AckTells s f :=
  fun _ _ hn hcmd => absurd hcmd (notifications_other (otaHandle_move s.1 f) hf hn)

theorem ackTells_step_iff (s : OtaContext × Eeprom) (f : AppFrame) : AckTells s f ↔ InStep s f := by
  cases f with
  | data d =>
    rw [ackTells_data]
    constructor
    · rintro h d' heq
      cases heq
      exact h
    · exact fun h => h d rfl
  | start | packageRetry | eraseRetry =>
    exact iff_of_true (ackTells_other fun d heq => by cases heq) fun d heq => by cases heq

/-! ### Runs -/

/-- **Every ACK of a run tells the sender where the receiver is exactly when no packet with a wrong
sequence number is asked for again.** -/
theorem ackTells_iff (e : Eeprom) (fs : List AppFrame) :
    EachStep otaStep AckTells (otaInit, e) fs ↔ EachStep otaStep InStep (otaInit, e) fs :=
  eachStep_iff ackTells_step_iff (otaInit, e) fs

/-- A packet with the sequence number `5`. -/
def strayPacket : DataFrame :=
  ⟨[0x53, 0x35, 0x08, 0x0C, 5, 0, 1, 1, 2, 3, 4, 4], rfl, by decide⟩

/-- **A lost packet is never asked for**: the receiver waits for the packet `0`, and the ACK of the
packet `5` asks for the packet `5` again. -/
theorem not_ackTells_stray : ¬ ∀ (e : Eeprom) (fs : List AppFrame),
    EachStep otaStep AckTells (otaInit, e) fs := by
  intro h
  obtain ⟨-, hstray, -⟩ := h (fun _ => 0) [.start (startOf 8), .data strayPacket]
  have hmax := (ackTells_data _ _).mp hstray (by decide) (by decide)
  exact absurd hmax (by decide)

end BleHidUart.Ota.Ack
