import BleHidUart.CtrlOta.Transfer
import Mathlib.Data.List.Chain

/-!
# The progress of an upload

The sent length of a transfer is a function of the number of ACKs handled in it, and each data frame
is a function of the sent length at which it goes out: `chunkAt len off` bytes of the image from
`off` on, where `len` is the length of the file. `Transcript` counts the ACKs since the boot or
since the last tick that left `ERROR`, and keeps the data frames with the sent length and the count
at which they went out. Every move keeps `ProgressInv`, and so it holds in every run from the boot.
-/

namespace BleHidUart.CtrlOta.Progress

open BleHidUart.Board BleHidUart.CtrlOta.Metadata BleHidUart.CtrlOta.Machine
open BleHidUart.CtrlOta.Moves BleHidUart.CtrlOta.Transfer BleHidUart.Lib.Memory BleHidUart.Lib.Run
open BleHidUart.Lib.Word

/-! ### Chunks of the image -/

/-- The size of the chunk of a file of `len` bytes that starts at `off`. -/
def chunkAt (len off : ℕ) : ℕ := min 200 (len - off)

/-- The data frame of the chunk that starts at `off`. -/
def frameAt (e : Eeprom) (len off : ℕ) : List UInt8 :=
  ctrlOtaHeader ++ UInt8.ofNat (10 + chunkAt len off) :: ctrlCmdData ::
    (if off + chunkAt len off < len then 0x01 else 0x00) ::
    slice e off (chunkAt len off) ++ [ctrlOtaCrc8 (slice e off (chunkAt len off))]

/-- **The frame carries the chunk that starts at `off`**, under the header and with the right
length, `has_more` and CRC bytes. -/
structure CarriesChunk (e : Eeprom) (len off : ℕ) (frame : List UInt8) : Prop where
  pos : 0 < chunkAt len off
  length : frame.length = 10 + chunkAt len off
  header : frame.take 6 = ctrlOtaHeader
  frameLen : (byteAt frame 6).toNat = 10 + chunkAt len off
  cmd : byteAt frame 7 = ctrlCmdData
  hasMore : byteAt frame 8 = 0 ↔ off + chunkAt len off = len
  payload : payload frame = slice e off (chunkAt len off)
  dataCrc : byteAt frame (9 + chunkAt len off) = (Moves.payload frame).foldl (· ^^^ ·) 0

theorem payload_frameAt (e : Eeprom) (len off : ℕ) :
    payload (frameAt e len off) = slice e off (chunkAt len off) := by
  unfold payload frameAt ctrlOtaHeader
  simp

theorem carriesChunk_frameAt (e : Eeprom) {len off : ℕ} (h : off < len) :
    CarriesChunk e len off (frameAt e len off) := by
  have hpos : 0 < chunkAt len off := by unfold chunkAt; omega
  have hle : off + chunkAt len off ≤ len := by unfold chunkAt; omega
  have hbyte : 10 + chunkAt len off < 256 := by unfold chunkAt; omega
  refine ⟨hpos, ?_, rfl, ?_, rfl, ?_, payload_frameAt e len off, ?_⟩
  · simp [frameAt, ctrlOtaHeader]
    omega
  · have hlen : byteAt (frameAt e len off) 6 = UInt8.ofNat (10 + chunkAt len off) := rfl
    rw [hlen, UInt8.toNat_ofNat', Nat.mod_eq_of_lt hbyte]
  · have hmore : byteAt (frameAt e len off) 8 =
        if off + chunkAt len off < len then 0x01 else 0x00 := rfl
    rw [hmore]
    split_ifs with hlt
    · exact ⟨fun h1 => absurd h1 (by decide), fun heq => by omega⟩
    · exact ⟨fun _ => by omega, fun _ => rfl⟩
  · rw [payload_frameAt, Nat.add_comm]
    have hcrc : frameAt e len off = (ctrlOtaHeader ++ [UInt8.ofNat (10 + chunkAt len off),
        ctrlCmdData, if off + chunkAt len off < len then 0x01 else 0x00]) ++
        (slice e off (chunkAt len off) ++ [ctrlOtaCrc8 (slice e off (chunkAt len off))]) := by
      simp [frameAt]
    rw [hcrc, byteAt, List.getD_append_right _ _ _ _ (by simp [ctrlOtaHeader])]
    rw [List.getD_append_right _ _ _ _ (by simp [ctrlOtaHeader])]
    simp [ctrlOtaHeader, ctrlOtaCrc8]

theorem dataFrame_eq_frameAt {g : CtrlOtaCtx} {e ee : Eeprom} (h : CtrlInv g)
    (hlen : g.fileLength.toNat ≤ flagAddr) (himg : ∀ a < flagAddr, ee a = e a) :
    dataFrame g ee = frameAt e g.fileLength.toNat g.sentLength.toNat := by
  have hle := h.sent_le
  have hchunk : (ctrlOtaChunk g).toNat = chunkAt g.fileLength.toNat g.sentLength.toNat :=
    toNat_ctrlOtaChunk h
  have hbytes : chunkBytes g ee =
      slice e g.sentLength.toNat (chunkAt g.fileLength.toNat g.sentLength.toNat) := by
    rw [chunkBytes_eq h hlen, hchunk]
    exact slice_congr fun a _ ha => himg a (by unfold chunkAt at ha; omega)
  have hframeLen : (ctrlDataHdrOverhead + ctrlOtaChunk g).toUInt8 =
      UInt8.ofNat (10 + chunkAt g.fileLength.toNat g.sentLength.toNat) := by
    rw [← UInt8.toNat_inj, UInt16.toNat_toUInt8, UInt16.toNat_add, hchunk, UInt8.toNat_ofNat']
    simp only [ctrlDataHdrOverhead, UInt16.reduceToNat]
    omega
  have hmore : (ctrlOtaChunk g).toUInt32 < g.fileLength - g.sentLength ↔
      g.sentLength.toNat + chunkAt g.fileLength.toNat g.sentLength.toNat < g.fileLength.toNat := by
    rw [UInt32.lt_iff_toNat_lt, UInt16.toNat_toUInt32, hchunk, toNat_sub_of_le hle]
    omega
  unfold dataFrame frameAt
  rw [hbytes, hframeLen]
  simp only [hmore]

/-! ### The transcript of a transfer -/

/-- A data frame, with the sent length and the number of ACKs handled when it went out. -/
structure Sent where
  offset : ℕ
  acks : ℕ
  frame : List UInt8
  deriving DecidableEq, Repr

/-- The ACKs handled in `WAIT_DATA_ACK` and the data frames sent, since the boot or since the last
tick that left `ERROR`. -/
structure Transcript where
  acks : ℕ := 0
  sent : List Sent := []
  deriving DecidableEq, Repr

/-- The event is a tick that leaves `ERROR`: a new transfer. -/
def LeavesError (g g' : CtrlOtaCtx) : CtrlEvent → Prop
  | .tick _ => g.state = .error ∧ g'.state ≠ .error
  | .reply _ _ => False

instance (g g' : CtrlOtaCtx) : (i : CtrlEvent) → Decidable (LeavesError g g' i)
  | .tick _ => inferInstanceAs (Decidable (g.state = .error ∧ g'.state ≠ .error))
  | .reply _ _ => .isFalse id

/-- What an event adds to the transcript. -/
def recordTranscript (t : Transcript) (s : CtrlOtaCtx × Eeprom) (i : CtrlEvent) (fx : List Effect)
    (s' : CtrlOtaCtx × Eeprom) : Transcript :=
  if LeavesError s.1 s'.1 i then {}
  else
    { acks := if IsReply ctrlCmdDataAck i ∧ s.1.state = .waitDataAck then t.acks + 1 else t.acks
      sent := t.sent ++ (dataFrames fx).map fun frame => ⟨s.1.sentLength.toNat, t.acks, frame⟩ }

/-- The controller side with its transcript. -/
abbrev progressStep : (CtrlOtaCtx × Eeprom) × Transcript → CtrlEvent →
    ((CtrlOtaCtx × Eeprom) × Transcript) × List Effect :=
  withHistory ctrlStep recordTranscript

variable {g g' : CtrlOtaCtx} {ee ee' e : Eeprom} {i : CtrlEvent} {fx : List Effect} {t : Transcript}
  {len : ℕ}

theorem recordTranscript_quiet (hs : ¬ LeavesError g g' i)
    (ha : ¬ (IsReply ctrlCmdDataAck i ∧ g.state = .waitDataAck)) (hfx : dataFrames fx = []) :
    recordTranscript t (g, ee) i fx (g', ee') = t := by
  unfold recordTranscript
  rw [if_neg hs, if_neg ha, hfx]
  simp

theorem recordTranscript_tick {now : UInt32} (hs : g.state ≠ .error) (hfx : dataFrames fx = []) :
    recordTranscript t (g, ee) (.tick now) fx (g', ee') = t :=
  recordTranscript_quiet (fun hl => hs hl.1) (fun ha => ha.1) hfx

theorem recordTranscript_reply {cmd : UInt8} {now : UInt32}
    (ha : ¬ (cmd = ctrlCmdDataAck ∧ g.state = .waitDataAck)) (hfx : dataFrames fx = []) :
    recordTranscript t (g, ee) (.reply cmd now) fx (g', ee') = t :=
  recordTranscript_quiet id ha hfx

theorem recordTranscript_ack {now : UInt32} (hs : g.state = .waitDataAck)
    (hfx : dataFrames fx = []) :
    recordTranscript t (g, ee) (.reply ctrlCmdDataAck now) fx (g', ee') =
      { t with acks := t.acks + 1 } := by
  have hno : ¬ LeavesError g g' (.reply ctrlCmdDataAck now) := id
  unfold recordTranscript
  rw [if_neg hno, if_pos ⟨rfl, hs⟩, hfx]
  simp

theorem recordTranscript_send {now : UInt32} {frame : List UInt8} (hs : g.state ≠ .error)
    (hfx : dataFrames fx = [frame]) : recordTranscript t (g, ee) (.tick now) fx (g', ee') =
      { t with sent := t.sent ++ [⟨g.sentLength.toNat, t.acks, frame⟩] } := by
  unfold recordTranscript
  rw [if_neg fun h => hs h.1, if_neg fun h => h.1, hfx]
  rfl

/-! ### The invariant -/

/-- The number of ACKs handled stays or goes up by one from a frame to the next. -/
def AcksStep (p q : Sent) : Prop := q.acks = p.acks ∨ q.acks = p.acks + 1

/-- A frame of the transcript is the frame of its offset, which its ACKs determine. -/
structure Sent.Of (e : Eeprom) (len : ℕ) (p : Sent) : Prop where
  offset : p.offset = 200 * p.acks
  lt : p.offset < len
  frame : p.frame = frameAt e len p.offset

theorem Sent.Of.carries {p : Sent} (h : p.Of e len) : CarriesChunk e len p.offset p.frame := by
  rw [h.frame]
  exact carriesChunk_frameAt e h.lt

/-- **What the transcript says of the context**, state by state. -/
structure ProgressInv (e : Eeprom) (g : CtrlOtaCtx) (t : Transcript) : Prop where
  acked : g.sentLength.toNat = min g.fileLength.toNat (200 * t.acks)
  sent : ∀ p ∈ t.sent, p.Of e g.fileLength.toNat
  chain : t.sent.IsChain AcksStep
  start : g.state = .sendRequest ∨ g.state = .waitConfirm → t = {}
  next : g.state = .sendData →
    ∀ p ∈ t.sent.getLast?, t.acks = p.acks ∨ t.acks = p.acks + 1
  pending : g.state = .waitDataAck → ∀ p ∈ t.sent.getLast?, t.acks = p.acks

theorem ProgressInv.of_state (h : ProgressInv e g t) (hf : g'.fileLength = g.fileLength)
    (hl : g'.sentLength = g.sentLength) (hs : g'.state = .waitComplete ∨ g'.state = .complete ∨
      g'.state = .error ∨ g'.state = .filed) : ProgressInv e g' t := by
  refine ⟨?_, ?_, h.chain, ?_, ?_, ?_⟩
  · rw [hl, hf]; exact h.acked
  · rw [hf]; exact h.sent
  all_goals rcases hs with hs | hs | hs | hs <;> simp [hs]

theorem ProgressInv.sent_of (h : ProgressInv e g t) (hc : CtrlInv g)
    (hlen : g.fileLength.toNat ≤ flagAddr) (himg : ∀ a < flagAddr, ee a = e a)
    (hne : g.sentLength ≠ g.fileLength) :
    (⟨g.sentLength.toNat, t.acks, dataFrame g ee⟩ : Sent).Of e g.fileLength.toNat := by
  have hlt := hc.sent_lt hne
  have hacked := h.acked
  refine ⟨?_, hlt, dataFrame_eq_frameAt hc hlen himg⟩
  show g.sentLength.toNat = 200 * t.acks
  omega

theorem ProgressInv.acked_advance (h : ProgressInv e g t) (hc : CtrlInv g)
    (hne : g.sentLength ≠ g.fileLength) :
    (ctrlOtaAdvanceData g).sentLength.toNat = min g.fileLength.toNat (200 * (t.acks + 1)) := by
  have hlt := hc.sent_lt hne
  have hacked := h.acked
  rw [toNat_advance hc, toNat_ctrlOtaChunk hc]
  omega

/-- **Every move keeps the invariant of the transcript.** -/
theorem ProgressInv.move (h : ProgressInv e g t) (hc : CtrlInv g)
    (hlen : g.fileLength.toNat ≤ flagAddr) (himg : ∀ a < flagAddr, ee a = e a)
    (hm : CtrlMove g ee i g' fx) :
    ProgressInv e g' (recordTranscript t (g, ee) i fx (g', applyEffects ee fx)) := by
  cases hm with
  | stay i hp =>
    have hno : ¬ LeavesError g g i := by cases i <;> simp [LeavesError]
    rw [recordTranscript_quiet hno hp.ack rfl]
    exact h
  | failed now hs =>
    rw [recordTranscript_tick (by simp [hs]) rfl]
    exact h
  | request now hs =>
    rw [recordTranscript_tick (by simp [hs]) rfl]
    exact ⟨h.1, h.2, h.3, h.4, h.5, h.6⟩
  | finish now hs hl =>
    rw [recordTranscript_tick (by simp [hs]) rfl]
    exact h.of_state rfl rfl (.inl rfl)
  | send now hs hne =>
    rw [recordTranscript_send (by simp [hs]) (dataFrames_data g ee)]
    have hnew := h.sent_of hc hlen himg hne
    refine ⟨h.acked, ?_, ?_, by simp, by simp, fun _ => by simp⟩
    · intro p hp
      rcases List.mem_append.mp hp with hold | hlast
      · exact h.sent p hold
      · rw [List.mem_singleton.mp hlast]
        exact hnew
    · refine h.chain.append (List.isChain_singleton _) fun p hp q hq => ?_
      obtain rfl := Option.some.inj hq
      exact h.next hs p hp
  | timeout now hs hto =>
    rw [recordTranscript_tick (by simp [hs]) rfl]
    exact ⟨h.acked, h.sent, h.chain, by simp, fun _ p hp => .inl (h.pending hs p hp), by simp⟩
  | restart now hs =>
    rw [recordTranscript, if_pos ⟨hs, by simp⟩]
    exact ⟨by simp, by simp, List.isChain_nil, fun _ => rfl, by simp, by simp⟩
  | confirm now hs =>
    rw [recordTranscript_reply (by simp [hs]) rfl]
    exact ⟨h.acked, h.sent, h.chain, fun _ => h.start (.inl hs), by simp, by simp⟩
  | erased now hs =>
    have hnil : t = {} := h.start hs
    have hne : ctrlCmdFlashEraseOk ≠ ctrlCmdDataAck := by decide
    rw [recordTranscript_reply (fun ha => hne ha.1) rfl]
    refine ⟨h.acked, h.sent, h.chain, by simp, fun _ p hp => ?_, by simp⟩
    rw [hnil] at hp
    cases hp
  | ackLast now hs hl =>
    rw [recordTranscript_ack hs rfl]
    exact ⟨h.acked_advance hc (hc.pending hs), h.sent, h.chain, by simp, by simp, by simp⟩
  | ackMore now hs hl =>
    rw [recordTranscript_ack hs rfl]
    refine ⟨h.acked_advance hc (hc.pending hs), h.sent, h.chain, by simp, fun _ p hp => ?_, by simp⟩
    exact .inr (congrArg (· + 1) (h.pending hs p hp))
  | success now =>
    have hne : ctrlCmdCrcSuccess ≠ ctrlCmdDataAck := by decide
    rw [recordTranscript_reply (fun ha => hne ha.1) (by simp)]
    exact h.of_state rfl rfl (.inr (.inl rfl))
  | crcFail now =>
    have hne : ctrlCmdCrcFail ≠ ctrlCmdDataAck := by decide
    rw [recordTranscript_reply (fun ha => hne ha.1) rfl]
    exact h.of_state rfl rfl (.inr (.inr (.inl rfl)))
  | refused cmd now hcmd =>
    have hne : cmd ≠ ctrlCmdDataAck := by
      rcases hcmd with ⟨rfl, -⟩ | rfl <;> decide
    rw [recordTranscript_reply (fun ha => hne ha.1) rfl]
    exact h.of_state rfl rfl (.inr (.inr (.inr rfl)))

/-! ### Every run -/

/-- The invariant of a run from the boot, on an EEPROM whose image area is that of `e`. -/
structure RunInv (e : Eeprom) (len : UInt32) (s : (CtrlOtaCtx × Eeprom) × Transcript) : Prop where
  ctrl : CtrlInv s.1.1
  length : s.1.1.fileLength = len
  image : ∀ a < flagAddr, s.1.2 a = e a
  progress : ProgressInv e s.1.1 s.2

theorem runInv_step {len : UInt32} (hlen : len.toNat ≤ flagAddr)
    (s : (CtrlOtaCtx × Eeprom) × Transcript) (i : CtrlEvent) (h : RunInv e len s) :
    RunInv e len (progressStep s i).1 := by
  have hm := ctrlHandle_move s.1.1 s.1.2 i
  have hbound : s.1.1.fileLength.toNat ≤ flagAddr := by rw [h.length]; exact hlen
  refine ⟨h.ctrl.move hm, (move_file hm).1.trans h.length, fun a ha => ?_,
    h.progress.move h.ctrl hbound h.image hm⟩
  exact (applyEffects_move_of_lt hm ha).trans (h.image a ha)

theorem runInv_boot (hflag : flagByte e = ctrlOtaFlagReady) :
    RunInv e (storedLength e) ((ctrlOtaInit e, e), {}) := by
  refine ⟨ctrlInv_init e, ?_, fun _ _ => rfl, ?_⟩ <;> rw [ctrlOtaInit_ready hflag]
  exact ⟨by simp, by simp, List.isChain_nil, fun _ => rfl, by simp, by simp⟩

/-- Two frames in a row: the same frame again with no ACK in between, or, with exactly one, the
frame of the next chunk. -/
def Successive (len : ℕ) (p q : Sent) : Prop :=
  q.acks = p.acks ∧ q.offset = p.offset ∧ q.frame = p.frame ∨
    q.acks = p.acks + 1 ∧ q.offset = p.offset + chunkAt len p.offset

theorem successive_of_acksStep {p q : Sent} (hp : p.Of e len) (hq : q.Of e len)
    (h : AcksStep p q) : Successive len p q := by
  have hpo := hp.offset
  have hqo := hq.offset
  have hlt := hq.lt
  rcases h with h | h
  · have hoff : q.offset = p.offset := by omega
    exact .inl ⟨h, hoff, by rw [hq.frame, hp.frame, hoff]⟩
  · refine .inr ⟨h, ?_⟩
    unfold chunkAt
    omega

/-- **The progress of a transfer** of `len` bytes of the image area of `e`. -/
structure Proceeds (e : Eeprom) (len : ℕ) (g : CtrlOtaCtx) (t : Transcript) : Prop where
  length : g.fileLength.toNat = len
  addr : g.eepromReadAddr = g.sentLength
  sent_le : g.sentLength.toNat ≤ len
  acked : g.sentLength.toNat = min len (200 * t.acks)
  carries : ∀ p ∈ t.sent, CarriesChunk e len p.offset p.frame
  successive : t.sent.IsChain (Successive len)
  done : g.state = .waitComplete → g.sentLength = g.fileLength

theorem RunInv.proceeds {len : UInt32} {s : (CtrlOtaCtx × Eeprom) × Transcript}
    (h : RunInv e len s) : Proceeds e len.toNat s.1.1 s.2 := by
  have hsent := h.progress.sent
  have hle := h.ctrl.sent_le
  have hacked := h.progress.acked
  rw [h.length] at hsent hle hacked
  have hchain : s.2.sent.IsChain (Successive len.toNat) :=
    h.progress.chain.imp_of_mem_imp fun p q hp hq =>
      successive_of_acksStep (hsent p hp) (hsent q hq)
  exact ⟨by rw [h.length], h.ctrl.addr, hle, hacked, fun p hp => (hsent p hp).carries, hchain,
    h.ctrl.done⟩

/-- A data frame goes out in `SEND_DATA` and carries the chunk at the sent length. -/
theorem RunInv.emits {len : UInt32} {s : (CtrlOtaCtx × Eeprom) × Transcript} (h : RunInv e len s)
    (hlen : len.toNat ≤ flagAddr) (i : CtrlEvent) {frame : List UInt8}
    (hf : Effect.uart frame ∈ (progressStep s i).2) (hcmd : byteAt frame 7 = ctrlCmdData) :
    CarriesChunk e len.toNat s.1.1.sentLength.toNat frame := by
  obtain ⟨-, hne, hframe⟩ := data_of_move (ctrlHandle_move s.1.1 s.1.2 i) hf hcmd
  have hbound : s.1.1.fileLength.toNat ≤ flagAddr := by rw [h.length]; exact hlen
  have hof := h.progress.sent_of h.ctrl hbound h.image hne
  rw [h.length, ← hframe] at hof
  exact hof.carries

/-- **The upload in every run.** With the ready flag and a stored length that fits below it, every
data frame of a run from the boot carries the chunk at the sent length, and the run ends with the
transfer in progress as its transcript says. -/
theorem upload_progress {e : Eeprom} (hflag : flagByte e = ctrlOtaFlagReady)
    (hlen : (storedLength e).toNat ≤ flagAddr) (is : List CtrlEvent) :
    EachStep progressStep (fun s i => ∀ frame, Effect.uart frame ∈ (progressStep s i).2 →
        byteAt frame 7 = ctrlCmdData →
          CarriesChunk e (storedLength e).toNat s.1.1.sentLength.toNat frame)
      ((ctrlOtaInit e, e), {}) is ∧
    Proceeds e (storedLength e).toNat (final progressStep ((ctrlOtaInit e, e), {}) is).1.1
      (final progressStep ((ctrlOtaInit e, e), {}) is).2 := by
  have hboot := runInv_boot hflag
  refine ⟨eachStep_of_invariant (fun s i h _ => runInv_step hlen s i h)
    (fun s i h _ frame hf hcmd => h.emits hlen i hf hcmd) hboot (eachStep_true _ is), ?_⟩
  exact (final_invariant (runInv_step hlen) hboot is).proceeds

/-- A frame that goes out a second time, and its ACK. -/
theorem upload_progress_resent :
    Proceeds sampleEeprom (storedLength sampleEeprom).toNat
        (final progressStep ((ctrlOtaInit sampleEeprom, sampleEeprom), {})
          [.reply 0x17 50, .tick 60, .tick 560, .tick 565, .reply 0x0B 570]).1.1
        (final progressStep ((ctrlOtaInit sampleEeprom, sampleEeprom), {})
          [.reply 0x17 50, .tick 60, .tick 560, .tick 565, .reply 0x0B 570]).2 ∧
      (final progressStep ((ctrlOtaInit sampleEeprom, sampleEeprom), {})
          [.reply 0x17 50, .tick 60, .tick 560, .tick 565, .reply 0x0B 570]).2.sent.map Sent.offset
        = [0, 0] :=
  ⟨(upload_progress (by decide) (by decide)
    [.reply 0x17 50, .tick 60, .tick 560, .tick 565, .reply 0x0B 570]).2, by decide⟩

end BleHidUart.CtrlOta.Progress
