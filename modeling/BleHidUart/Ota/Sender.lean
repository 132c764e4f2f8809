import BleHidUart.Ota.Receive
import BleHidUart.Ota.Rejected

/-!
# A sender that gets through

The app cuts a file into packets of at most 200 bytes and numbers them. On the way packets may be
damaged or come twice; the device asks for the packet again, and the sender sends it again.
`sender_delivers`: as long as no packet takes more than ten attempts, the device answers as written
in `answers`, and the file is complete in the EEPROM.
-/

namespace BleHidUart.Ota.Sender

open BleHidUart.Board BleHidUart.CtrlOta.Metadata BleHidUart.Lib.Run BleHidUart.Lib.Word
open BleHidUart.Ota.Handlers BleHidUart.Ota.Moves BleHidUart.Ota.Receive BleHidUart.Ota.Rejected
open BleHidUart.Ota.Session

/-! ### The frames of the sender -/

/-- A piece of the file that fits into a packet. -/
abbrev Piece := { xs : List UInt8 // xs.length ≤ 200 }

/-- A packet with the number `seq`; `more` is `0` in the last one. -/
def packetWith (crc : UInt8) (seq : UInt16) (more : UInt8) (p : Piece) : DataFrame where
  bytes := v3FrameHead0 :: v3FrameHead1 :: otaCmdData :: UInt8.ofNat (p.1.length + 8) ::
    (seq &&& 0xFF).toUInt8 :: ((seq >>> 8) &&& 0xFF).toUInt8 :: more :: (p.1 ++ [crc])
  head := by
    simp only [List.length_cons, List.length_append, List.length_nil]
    rfl
  size := by
    have hp := p.2
    simp only [List.length_cons, List.length_append, List.length_nil]
    omega

/-- The packet with its own CRC. -/
abbrev packetOf (seq : UInt16) (more : UInt8) (p : Piece) : DataFrame :=
  packetWith (otaPacketCrcCalculate p.1) seq more p

/-- The start request for the file. -/
def startOfFile (file : List UInt8) : StartFrame where
  bytes :=
    let len := UInt32.ofNat file.length
    let crc := otaFileCrcCalculate file
    [v3FrameHead0, v3FrameHead1, otaCmdStart, 12, byte32 len 0, byte32 len 1, byte32 len 2,
      byte32 len 3, byte32 crc 0, byte32 crc 1, byte32 crc 2, byte32 crc 3]
  head := rfl
  size := ⟨le_rfl, le_rfl⟩

/-- A piece, and the packets that are rejected before it is accepted. -/
structure Attempt where
  lost : List DataFrame
  piece : Piece

/-- The packets are rejected where `seq` is expected, and there are at most nine of them. -/
structure Attempt.Ok (a : Attempt) (seq : UInt16) : Prop where
  rejected : ∀ f ∈ a.lost, ¬(seqOf f = seq ∧ PacketCrcOk f)
  few : a.lost.length ≤ 9

/-- The packets from number `seq` on. -/
def packetsFrom : UInt16 → List Attempt → List DataFrame
  | _, [] => []
  | seq, [a] => a.lost ++ [packetOf seq 0x00 a.piece]
  | seq, a :: b :: as => a.lost ++ packetOf seq 0x01 a.piece :: packetsFrom (seq + 1) (b :: as)

/-- All attempts are as they have to be, from number `seq` on. -/
def AllOk : UInt16 → List Attempt → Prop
  | _, [] => True
  | seq, a :: as => a.Ok seq ∧ AllOk (seq + 1) as

/-- An ACK as the app gets it. -/
def ackOf (seq : UInt16) (result : UInt8) : List UInt8 × ℕ :=
  ([v3FrameHead0, v3FrameHead1, otaCmdData, UInt8.ofNat otaFrameDataAckSize, (seq &&& 0xFF).toUInt8,
    ((seq >>> 8) &&& 0xFF).toUInt8, result], otaFrameDataAckSize)

/-- The ACKs from number `seq` on: resend for each packet that was rejected, then continue. -/
def acksFrom : UInt16 → List Attempt → List (List UInt8 × ℕ)
  | _, [] => []
  | seq, a :: as =>
    (a.lost.map fun f => ackOf (seqOf f) otaAckResend) ++ ackOf seq otaAckContinue ::
      acksFrom (seq + 1) as

/-- All answers to the transfer. -/
def answers (as : List Attempt) : List (List UInt8 × ℕ) :=
  ([v3FrameHead0, v3FrameHead1, otaCmdStart, 5, otaResultSuccess], 5) ::
    ([v3FrameHead0, v3FrameHead1, otaCmdFlashEraseDone, 5, otaResultSuccess], 5) :: acksFrom 0 as

/-- The pieces, put together. -/
def fileOf (as : List Attempt) : List UInt8 := as.flatMap fun a => a.piece.1

/-! ### One packet -/

section Packet
variable (crc : UInt8) (seq : UInt16) (more : UInt8) (p : Piece)

theorem seqOf_packetWith : seqOf (packetWith crc seq more p) = seq := le16_bytes seq

theorem content_packetWith : content (packetWith crc seq more p) = p.1 := by
  have hlen : (packetWith crc seq more p).bytes.length - 8 = p.1.length := by
    simp only [packetWith, List.length_cons, List.length_append, List.length_nil]
    omega
  have hdrop : (packetWith crc seq more p).bytes.drop 7 = p.1 ++ [crc] := rfl
  rw [content, hlen, hdrop, List.take_left]

theorem packetCrcOk_packetWith :
    PacketCrcOk (packetWith crc seq more p) ↔ otaPacketCrcCalculate p.1 = crc := by
  have hlen : (packetWith crc seq more p).bytes.length - 1 = p.1.length + 7 := by
    simp only [packetWith, List.length_cons, List.length_append, List.length_nil]
    omega
  have hlast : byteAt (packetWith crc seq more p).bytes (p.1.length + 7) =
      byteAt (p.1 ++ [crc]) p.1.length := rfl
  unfold PacketCrcOk
  rw [hlen, hlast, content_packetWith, byteAt, List.getD_append_right _ _ _ _ le_rfl, Nat.sub_self]
  rfl

end Packet

variable {len crc : UInt32} {xs : List UInt8} {seq : UInt16} {s : OtaContext × Eeprom}

/-- The session has accepted `xs`, expects the number `seq` next, and has rejected `n` packets since
the last one that it accepted. -/
structure Expecting (len crc : UInt32) (xs : List UInt8) (seq : UInt16) (n : ℕ)
    (s : OtaContext × Eeprom) : Prop where
  receiving : Receiving len crc xs s
  seq : s.1.expectedSeq = seq
  rejects : s.1.resendCount.toNat = n

theorem Expecting.accepts {n : ℕ} (h : Expecting len crc xs seq n s) (more : UInt8) (p : Piece) :
    Accepts s.1 (packetOf seq more p) :=
  ⟨h.receiving.state, by rw [seqOf_packetWith, h.seq], (packetCrcOk_packetWith _ _ _ _).mpr rfl⟩

theorem Expecting.reject {n : ℕ} (h : Expecting len crc xs seq n s) (hn : n < 9) {f : DataFrame}
    (hf : ¬(seqOf f = seq ∧ PacketCrcOk f)) :
    Expecting len crc xs seq (n + 1) (otaStep s (.data f)).1 ∧
      notifications (otaStep s (.data f)).2 = [ackOf (seqOf f) otaAckResend] := by
  have hstep : otaHandle s.1 (.data f) = otaRejectPacket s.1 (seqOf f) := by
    rw [otaHandle_data, if_neg (not_not.mpr h.receiving.state)]
    by_cases hseq : seqOf f = s.1.expectedSeq
    · have hcrc : ¬PacketCrcOk f := fun hc => hf ⟨hseq.trans h.seq, hc⟩
      rw [if_neg (not_not.mpr hseq), if_pos hcrc, hseq]
    · rw [if_pos hseq]
  have hmax : otaMaxResendCount.toNat = 10 := rfl
  have hr := h.rejects
  have hsucc : (s.1.resendCount + 1).toNat = n + 1 := by
    rw [toNat_succ_resend (by omega), hr]
  have hfew : ¬otaMaxResendCount ≤ s.1.resendCount + 1 := by
    rw [UInt8.le_iff_toNat_le, hsucc]
    omega
  have hres : otaRejectPacket s.1 (seqOf f) =
      ({ s.1 with resendCount := s.1.resendCount + 1 },
      [otaSendDataAck (seqOf f) otaAckResend]) := by
    simp only [otaRejectPacket, if_neg hfew]
  have hrec := h.receiving
  have hinv := hrec.inv
  unfold otaStep
  rw [hstep, hres]
  have hsession : OtaInv { s.1 with resendCount := s.1.resendCount + 1 } s.2 :=
    ⟨hinv.1, hinv.2, hinv.3, hinv.4, hinv.5⟩
  exact ⟨⟨⟨hsession, hrec.2, hrec.3, hrec.4, hrec.5, hrec.6⟩, h.seq, hsucc⟩, rfl⟩

/-- Up to nine packets in a row. -/
theorem Expecting.rejects_run {n : ℕ} {fs : List DataFrame} (h : Expecting len crc xs seq n s)
    (hn : n + fs.length ≤ 9) (hfs : ∀ f ∈ fs, ¬(seqOf f = seq ∧ PacketCrcOk f)) :
    Expecting len crc xs seq (n + fs.length) (final otaStep s (fs.map .data)) ∧
      notifications (outs otaStep s (fs.map .data)) =
        fs.map fun f => ackOf (seqOf f) otaAckResend := by
  induction fs generalizing s n with
  | nil => exact ⟨h, rfl⟩
  | cons f fs ih =>
    rw [List.length_cons] at hn ⊢
    obtain ⟨hf, hfs⟩ := List.forall_mem_cons.mp hfs
    obtain ⟨hnext, hack⟩ := h.reject (by omega) hf
    obtain ⟨hfinal, hacks⟩ := ih hnext (by omega) hfs
    rw [List.map_cons, final_cons, outs_cons, notifications_append, hack, hacks,
      Nat.add_comm fs.length, ← Nat.add_assoc]
    exact ⟨hfinal, rfl⟩

theorem Expecting.continue {n : ℕ} (h : Expecting len crc xs seq n s) (p : Piece) :
    Expecting len crc (xs ++ p.1) (seq + 1) 0 (otaStep s (.data (packetOf seq 0x01 p))).1 ∧
      notifications (otaStep s (.data (packetOf seq 0x01 p))).2 = [ackOf seq otaAckContinue] := by
  have hacc := h.accepts 0x01 p
  have hmore : hasMore (packetOf seq 0x01 p) ≠ 0 := (by decide : (0x01 : UInt8) ≠ 0)
  have hnext := h.receiving.accept hacc
  rw [content_packetWith] at hnext
  unfold otaStep
  rw [otaHandle_accepted hacc, if_neg hmore]
  dsimp only
  rw [applyEffects_append, applyEffects_stored h.receiving.inv, seqOf_packetWith,
    notifications_append, notifications_eepromWrite]
  exact ⟨⟨hnext, congrArg (· + 1) h.seq, rfl⟩, rfl⟩

theorem Expecting.finalCrc {n : ℕ} (h : Expecting len crc xs seq n s) (p : Piece)
    (hlen : len.toNat = (xs ++ p.1).length) :
    finalCrc s.1 (packetOf seq 0x00 p) = otaFileCrcCalculate (xs ++ p.1) := by
  have hstored := h.receiving.stored_eq (packetOf seq 0x00 p)
  rw [content_packetWith, List.take_of_length_le hlen.ge] at hstored
  rw [finalCrc_eq h.receiving.inv, h.receiving.image, hstored]

theorem Expecting.commit {n : ℕ} (h : Expecting len crc xs seq n s) (p : Piece)
    (hlen : len.toNat = (xs ++ p.1).length) (hcrc : crc = otaFileCrcCalculate (xs ++ p.1)) :
    (otaStep s (.data (packetOf seq 0x00 p))).1.1 = otaReset ∧
      Downloaded len crc (xs ++ p.1) (otaStep s (.data (packetOf seq 0x00 p))).1.2 ∧
      notifications (otaStep s (.data (packetOf seq 0x00 p))).2 = [ackOf seq otaAckContinue] := by
  have hacc := h.accepts 0x00 p
  have hrec := h.receiving
  have hlast : hasMore (packetOf seq 0x00 p) = 0 := rfl
  have hfull : (xs ++ p.1).take len.toNat = xs ++ p.1 := List.take_of_length_le hlen.ge
  have hfinal : Moves.finalCrc s.1 (packetOf seq 0x00 p) = s.1.fileCrc := by
    rw [h.finalCrc p hlen, hrec.fileCrc, hcrc]
  have hclose : otaLastPacket (afterStore s.1 (packetOf seq 0x00 p)) seq =
      (otaReset, otaSendDataAck seq otaAckContinue ::
        ctrlOtaSetotaReadyflag s.1.fileLength s.1.fileCrc) :=
    if_pos hfinal
  have hdone := hrec.commit (f := packetOf seq 0x00 p) (by rw [content_packetWith, hlen])
  rw [content_packetWith, hfull] at hdone
  unfold otaStep
  rw [otaHandle_accepted hacc, if_pos hlast, seqOf_packetWith, hclose]
  dsimp only
  rw [applyEffects_append, applyEffects_stored hrec.inv, applyEffects_cons, applyEffects_readyflag,
    notifications_append, notifications_eepromWrite, otaSendDataAck, notifications_notify,
    notifications_readyflag]
  exact ⟨rfl, hdone, rfl⟩

/-! ### The transfer -/

theorem toNat_length_file {file : List UInt8} (hfit : file.length ≤ flagAddr) :
    (UInt32.ofNat file.length).toNat = file.length :=
  UInt32.toNat_ofNat_of_lt' (lt_of_le_of_lt hfit (by decide))

theorem expecting_start {file : List UInt8} (hpos : file ≠ []) (hfit : file.length ≤ flagAddr)
    (hs : s.1.state = .idle) :
    Expecting (UInt32.ofNat file.length) (otaFileCrcCalculate file) [] 0 0
        (otaStep s (.start (startOfFile file))).1 ∧
      notifications (otaStep s (.start (startOfFile file))).2 =
        [([v3FrameHead0, v3FrameHead1, otaCmdStart, 5, otaResultSuccess], 5),
          ([v3FrameHead0, v3FrameHead1, otaCmdFlashEraseDone, 5, otaResultSuccess], 5)] := by
  have hlenNat := toNat_length_file hfit
  have hslen : startLen (startOfFile file) = UInt32.ofNat file.length := le32_byte32 _
  have hscrc : startCrc (startOfFile file) = otaFileCrcCalculate file := le32_byte32 _
  have hopens : Opens s.1 (startOfFile file) := by
    refine ⟨hs, ?_, ?_⟩
    · rw [hslen, Ne, ← UInt32.toNat_inj, hlenNat]
      exact fun h0 => hpos (List.length_eq_zero_iff.mp h0)
    · rw [hslen, UInt32.le_iff_toNat_le, hlenNat]
      exact hfit
  have hstart : Receiving (startLen (startOfFile file)) (startCrc (startOfFile file)) []
      (otaStep s (.start (startOfFile file))).1 := receiving_start hopens
  rw [hslen, hscrc] at hstart
  suffices hfields : (otaStep s (.start (startOfFile file))).1.1.expectedSeq = 0 ∧
      (otaStep s (.start (startOfFile file))).1.1.resendCount = 0 ∧
      notifications (otaStep s (.start (startOfFile file))).2 =
        [([v3FrameHead0, v3FrameHead1, otaCmdStart, 5, otaResultSuccess], 5),
          ([v3FrameHead0, v3FrameHead1, otaCmdFlashEraseDone, 5, otaResultSuccess], 5)] from
    ⟨⟨hstart, hfields.1, congrArg UInt8.toNat hfields.2.1⟩, hfields.2.2⟩
  have hmove := otaHandle_move s.1 (.start (startOfFile file))
  unfold otaStep
  generalize (otaHandle s.1 (.start (startOfFile file))).1 = c',
    (otaHandle s.1 (.start (startOfFile file))).2 = fx at hmove ⊢
  cases hmove with
  | startIgnored _ hno => exact absurd hs hno
  | startRefused _ _ hno => exact absurd hopens hno
  | startAccepted =>
    rw [notifications_append, notifications_writeFlag]
    exact ⟨rfl, rfl, rfl⟩

/-- What is left of the transfer, from number `seq` on. -/
theorem Expecting.deliver {as : List Attempt} (hne : as ≠ []) (h : Expecting len crc xs seq 0 s)
    (hok : AllOk seq as) (hlen : len.toNat = (xs ++ fileOf as).length)
    (hcrc : crc = otaFileCrcCalculate (xs ++ fileOf as)) :
    (final otaStep s ((packetsFrom seq as).map .data)).1 = otaReset ∧
      Downloaded len crc (xs ++ fileOf as) (final otaStep s ((packetsFrom seq as).map .data)).2 ∧
      notifications (outs otaStep s ((packetsFrom seq as).map .data)) = acksFrom seq as := by
  induction as generalizing s xs seq with
  | nil => exact absurd rfl hne
  | cons a as ih =>
    obtain ⟨⟨hrej, hfew⟩, hoks⟩ := hok
    obtain ⟨hlost, hacks⟩ := h.rejects_run (by omega) hrej
    cases as with
    | nil =>
      have hfile : fileOf [a] = a.piece.1 := List.append_nil _
      rw [hfile] at hlen hcrc ⊢
      obtain ⟨hctx, hdone, hack⟩ := hlost.commit a.piece hlen hcrc
      rw [packetsFrom, List.map_append, final_append, outs_append, notifications_append, hacks]
      exact ⟨hctx, hdone, congrArg _ ((congrArg notifications (List.append_nil _)).trans hack)⟩
    | cons b as =>
      have hfile : xs ++ fileOf (a :: b :: as) = (xs ++ a.piece.1) ++ fileOf (b :: as) :=
        (List.append_assoc _ _ _).symm
      rw [hfile] at hlen hcrc ⊢
      obtain ⟨hnext, hack⟩ := hlost.continue a.piece
      obtain ⟨hctx, hdone, hrest⟩ := ih (List.cons_ne_nil _ _) hnext hoks hlen hcrc
      rw [packetsFrom, List.map_append, final_append, outs_append, notifications_append, hacks,
        List.map_cons, final_cons, outs_cons, notifications_append, hack, hrest]
      exact ⟨hctx, hdone, rfl⟩

/-- **The sender gets through.** For every file that fits, every cut into packets and every packet
lost on the way, the app gets exactly these answers, and the device holds the file and announces it;
whatever the EEPROM held. -/
theorem sender_delivers {as : List Attempt} (hpos : fileOf as ≠ [])
    (hfit : (fileOf as).length ≤ flagAddr) (hok : AllOk 0 as) {s : OtaContext × Eeprom}
    (hs : s.1.state = .idle) :
    let frames := AppFrame.start (startOfFile (fileOf as)) :: (packetsFrom 0 as).map .data
    (final otaStep s frames).1 = otaReset ∧
      Downloaded (UInt32.ofNat (fileOf as).length) (otaFileCrcCalculate (fileOf as)) (fileOf as)
        (final otaStep s frames).2 ∧
      notifications (outs otaStep s frames) = answers as := by
  have hne : as ≠ [] := by
    rintro rfl
    exact hpos rfl
  obtain ⟨hexpect, hnotes⟩ := expecting_start hpos hfit hs
  obtain ⟨hctx, hdone, hacks⟩ := hexpect.deliver hne hok (toNat_length_file hfit) rfl
  refine ⟨hctx, hdone, ?_⟩
  rw [outs_cons, notifications_append, hnotes, hacks]
  rfl

end BleHidUart.Ota.Sender
