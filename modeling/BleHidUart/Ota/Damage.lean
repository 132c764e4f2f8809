import BleHidUart.Ota.Sender

/-!
# Damage that goes unnoticed

A packet carries the XOR of its bytes, the start request the XOR of the words of the file. Both are
blind for damage that cancels out. `damage_passes_iff`: if the contents of packets are changed on
the way, the device announces the changed file exactly when the XOR of each packet is the same as
before, and so is the XOR of each of the four lanes of the file, which are the bytes whose places
differ by multiples of four.
-/

namespace BleHidUart.Ota.Damage

open BleHidUart.Board BleHidUart.CtrlOta.Metadata BleHidUart.Lib.Memory BleHidUart.Lib.Run
open BleHidUart.Lib.Word BleHidUart.Ota.Handlers BleHidUart.Ota.Moves BleHidUart.Ota.Receive
open BleHidUart.Ota.Rejected BleHidUart.Ota.Sender BleHidUart.Ota.Session

/-! ### The lanes of a file -/

/-- The XOR of the bytes at the places `k`, `k + 4`, `k + 8`, ... -/
def lane : ℕ → List UInt8 → UInt8
  | _, [] => 0
  | 0, b :: s => b ^^^ lane 3 s
  | k + 1, _ :: s => lane k s

/-- The bytes that fill the last word up. -/
def padding (n : ℕ) : UInt32 :=
  match n % 4 with
  | 1 => le32 0 0xFF 0xFF 0xFF
  | 2 => le32 0 0 0xFF 0xFF
  | 3 => le32 0 0 0 0xFF
  | _ => 0

/-- The four lanes as a word. -/
def lanes (s : List UInt8) : UInt32 := le32 (lane 0 s) (lane 1 s) (lane 2 s) (lane 3 s)

theorem otaFileCrcLoop_eq :
    ∀ (s : List UInt8) (crc : UInt32), otaFileCrcLoop crc s = crc ^^^ lanes s ^^^ padding s.length
  | [], crc => by
    have hzero : lanes [] = 0 := rfl
    have hpad : padding ([] : List UInt8).length = 0 := rfl
    rw [hzero, hpad, UInt32.xor_zero, UInt32.xor_zero]
    rfl
  | [a], crc => by
    have hpad : padding [a].length = le32 0 0xFF 0xFF 0xFF := rfl
    rw [hpad, UInt32.xor_assoc, lanes, le32_xor]
    simp [otaFileCrcLoop, lane]
  | [a, b], crc => by
    have hpad : padding [a, b].length = le32 0 0 0xFF 0xFF := rfl
    rw [hpad, UInt32.xor_assoc, lanes, le32_xor]
    simp [otaFileCrcLoop, lane]
  | [a, b, c], crc => by
    have hpad : padding [a, b, c].length = le32 0 0 0 0xFF := rfl
    rw [hpad, UInt32.xor_assoc, lanes, le32_xor]
    simp [otaFileCrcLoop, lane]
  | a :: b :: c :: d :: s, crc => by
    have hpad : padding (a :: b :: c :: d :: s).length = padding s.length := by
      unfold padding
      have hlen : (a :: b :: c :: d :: s).length % 4 = s.length % 4 := by
        simp only [List.length_cons]
        omega
      rw [hlen]
    have hlanes : lanes (a :: b :: c :: d :: s) = le32 a b c d ^^^ lanes s := by
      rw [lanes, lanes, le32_xor]
      rfl
    rw [hpad, hlanes, ← UInt32.xor_assoc, ← otaFileCrcLoop_eq s]
    rfl

/-- The lanes are the same. -/
def SameLanes (s t : List UInt8) : Prop := ∀ k < 4, lane k s = lane k t

instance (s t : List UInt8) : Decidable (SameLanes s t) :=
  inferInstanceAs (Decidable (∀ k < 4, lane k s = lane k t))

theorem lanes_eq_iff {s t : List UInt8} : lanes s = lanes t ↔ SameLanes s t := by
  constructor
  · intro h k hk
    obtain ⟨h0, h1, h2, h3⟩ := le32_inj h
    obtain rfl | rfl | rfl | rfl : k = 0 ∨ k = 1 ∨ k = 2 ∨ k = 3 := by omega
    exacts [h0, h1, h2, h3]
  · intro h
    unfold lanes
    rw [h 0 (by decide), h 1 (by decide), h 2 (by decide), h 3 (by decide)]

/-- **What the file CRC sees** of files of one length. -/
theorem otaFileCrc_eq_iff {s t : List UInt8} (h : s.length = t.length) :
    otaFileCrcCalculate s = otaFileCrcCalculate t ↔ SameLanes s t := by
  unfold otaFileCrcCalculate
  rw [otaFileCrcLoop_eq, otaFileCrcLoop_eq, h, UInt32.xor_left_inj, UInt32.xor_right_inj,
    lanes_eq_iff]

/-! ### The transfer -/

/-- What is sent in a packet, and what arrives of it. -/
structure Damaged where
  sent : List UInt8
  got : Piece
  length : got.1.length = sent.length

/-- The packet as it arrives: the head and the CRC are those of what was sent. -/
abbrev arrived (seq : UInt16) (more : UInt8) (d : Damaged) : DataFrame :=
  packetWith (otaPacketCrcCalculate d.sent) seq more d.got

/-- The packets from number `seq` on. -/
def arrivedFrom : UInt16 → List Damaged → List DataFrame
  | _, [] => []
  | seq, [d] => [arrived seq 0x00 d]
  | seq, d :: e :: ds => arrived seq 0x01 d :: arrivedFrom (seq + 1) (e :: ds)

/-- The file of the sender. -/
def sentFile (ds : List Damaged) : List UInt8 := ds.flatMap Damaged.sent

/-- The file that arrives. -/
def gotFile (ds : List Damaged) : List UInt8 := ds.flatMap fun d => d.got.1

/-- The XOR of the packet does not change. -/
def Damaged.Unseen (d : Damaged) : Prop :=
  otaPacketCrcCalculate d.got.1 = otaPacketCrcCalculate d.sent

instance (d : Damaged) : Decidable d.Unseen := inferInstanceAs (Decidable (_ = _))

theorem length_gotFile (ds : List Damaged) : (gotFile ds).length = (sentFile ds).length := by
  unfold gotFile sentFile
  rw [List.length_flatMap, List.length_flatMap]
  exact congrArg List.sum (List.map_congr_left fun d _ => d.length)

theorem arrived_unseen {d : Damaged} (h : d.Unseen) (seq : UInt16) (more : UInt8) :
    arrived seq more d = packetOf seq more d.got := congrArg (packetWith · seq more d.got) h.symm

theorem arrivedFrom_cons (seq : UInt16) (d : Damaged) (ds : List Damaged) :
    ∃ more, arrivedFrom seq (d :: ds) = arrived seq more d :: arrivedFrom (seq + 1) ds := by
  cases ds with
  | nil => exact ⟨0x00, rfl⟩
  | cons e ds => exact ⟨0x01, rfl⟩

variable {len crc : UInt32} {xs : List UInt8} {seq : UInt16} {s : OtaContext × Eeprom}

theorem unannounced {n : ℕ} (h : Expecting len crc xs seq n s) (hlen : len ≠ 0) :
    flagByte s.2 ≠ ctrlOtaFlagReady := fun hf =>
  hlen (h.receiving.length.symm.trans (h.receiving.inv.fresh hf))

/-- After a packet that is rejected none of the next ones is accepted: the numbers do not fit, and
the tenth ends the session. -/
theorem flag_stuck (hlen : len ≠ 0) (ds : List Damaged) {n : ℕ} (hn : 1 ≤ n ∧ n ≤ 9)
    (h : Expecting len crc xs seq n s) :
    flagByte (final otaStep s ((arrivedFrom (seq + UInt16.ofNat n) ds).map .data)).2 ≠
      ctrlOtaFlagReady := by
  induction ds generalizing n s with
  | nil => exact unannounced h hlen
  | cons d ds ih =>
    obtain ⟨more, hcons⟩ := arrivedFrom_cons (seq + UInt16.ofNat n) d ds
    have hother : seqOf (arrived (seq + UInt16.ofNat n) more d) ≠ seq := by
      rw [seqOf_packetWith]
      intro heq
      have hzero : UInt16.ofNat n = 0 := by simpa using heq
      have hnat := congrArg UInt16.toNat hzero
      rw [UInt16.toNat_ofNat_of_lt' (by simp only [UInt16.size]; omega)] at hnat
      exact absurd hnat (by simp only [UInt16.toNat_zero]; omega)
    rw [hcons, List.map_cons, final_cons]
    by_cases hlt : n < 9
    · have hnext := (h.reject hlt fun hf => hother hf.1).1
      have hseq : seq + UInt16.ofNat n + 1 = seq + UInt16.ofNat (n + 1) := by
        rw [UInt16.add_assoc, UInt16.ofNat_add]
        rfl
      rw [hseq]
      exact ih ⟨by omega, by omega⟩ hnext
    · have hmax : otaMaxResendCount.toNat = 10 := rfl
      have hr := h.rejects
      have htenth : otaMaxResendCount ≤ s.1.resendCount + 1 := by
        rw [UInt8.le_iff_toNat_le, toNat_succ_resend (by omega), hr, hmax]
        omega
      obtain ⟨q, habort⟩ := abort_of_reject htenth
        ⟨h.receiving.state, fun ha => hother (ha.seq.trans h.seq)⟩
      have hover : (otaStep s (.data (arrived (seq + UInt16.ofNat n) more d))).1 =
          (otaReset, s.2) :=
        congrArg Prod.fst habort
      have hquiet := unannounced h hlen
      rw [hover, final_closed (s := (otaReset, s.2)) otaReset_closed]
      exact hquiet

theorem mismatch_last {n : ℕ} (h : Expecting len crc xs seq n s) (hlen : len ≠ 0) (p : Piece)
    (hfull : len.toNat = (xs ++ p.1).length) (hcrc : crc ≠ otaFileCrcCalculate (xs ++ p.1)) :
    flagByte (otaStep s (.data (packetOf seq 0x00 p))).1.2 ≠ ctrlOtaFlagReady := by
  have hacc := h.accepts 0x00 p
  have hlast : hasMore (packetOf seq 0x00 p) = 0 := rfl
  have hfinal : finalCrc s.1 (packetOf seq 0x00 p) ≠ s.1.fileCrc := by
    rw [h.finalCrc p hfull, h.receiving.fileCrc]
    exact hcrc.symm
  have hclose : otaLastPacket (afterStore s.1 (packetOf seq 0x00 p)) (seqOf (packetOf seq 0x00 p)) =
      (otaReset, [otaSendDataAck (seqOf (packetOf seq 0x00 p)) otaAckFail]) := if_neg hfinal
  have hstore : (otaStep s (.data (packetOf seq 0x00 p))).1.2 =
      store s.2 s.1.receivedLength.toNat (stored s.1 (packetOf seq 0x00 p)) := by
    unfold otaStep
    rw [otaHandle_accepted hacc, if_pos hlast, hclose]
    dsimp only
    rw [applyEffects_append, applyEffects_stored h.receiving.inv]
    rfl
  rw [hstore, (stored_store_stored h.receiving.inv _).1]
  exact unannounced h hlen

/-- What is left of the transfer, from number `seq` on. -/
theorem arrive {ds : List Damaged} (hne : ds ≠ []) (h : Expecting len crc xs seq 0 s)
    (hlen : len ≠ 0) (hfull : len.toNat = (xs ++ gotFile ds).length) :
    let e := (final otaStep s ((arrivedFrom seq ds).map .data)).2
    (flagByte e = ctrlOtaFlagReady ↔
        (∀ d ∈ ds, d.Unseen) ∧ crc = otaFileCrcCalculate (xs ++ gotFile ds)) ∧
      (flagByte e = ctrlOtaFlagReady → Downloaded len crc (xs ++ gotFile ds) e) := by
  induction ds generalizing s xs seq with
  | nil => exact absurd rfl hne
  | cons d ds ih =>
    by_cases hd : d.Unseen
    · cases ds with
      | nil =>
        have hfile : gotFile [d] = d.got.1 := List.append_nil _
        have hrun : final otaStep s ((arrivedFrom seq [d]).map .data) =
            (otaStep s (.data (packetOf seq 0x00 d.got))).1 := by
          rw [arrivedFrom, arrived_unseen hd]
          rfl
        rw [hfile] at hfull ⊢
        rw [hrun]
        by_cases hcrc : crc = otaFileCrcCalculate (xs ++ d.got.1)
        · obtain ⟨-, hdone, -⟩ := h.commit d.got hfull hcrc
          exact ⟨⟨fun _ => ⟨List.forall_mem_singleton.mpr hd, hcrc⟩, fun _ => hdone.flag⟩,
            fun _ => hdone⟩
        · have hno := mismatch_last h hlen d.got hfull hcrc
          exact ⟨⟨fun hf => absurd hf hno, fun hboth => absurd hboth.2 hcrc⟩,
            fun hf => absurd hf hno⟩
      | cons e ds =>
        have hfile : xs ++ gotFile (d :: e :: ds) = (xs ++ d.got.1) ++ gotFile (e :: ds) :=
          (List.append_assoc _ _ _).symm
        have hrest := ih (List.cons_ne_nil _ _) (h.continue d.got).1 (hfile ▸ hfull)
        rw [hfile, arrivedFrom, arrived_unseen hd, List.map_cons, final_cons]
        refine ⟨hrest.1.trans (and_congr_left fun _ => ?_), hrest.2⟩
        exact ⟨fun hds => List.forall_mem_cons.mpr ⟨hd, hds⟩,
          fun hds => (List.forall_mem_cons.mp hds).2⟩
    · obtain ⟨more, hcons⟩ := arrivedFrom_cons seq d ds
      have hbad : ¬(seqOf (arrived seq more d) = seq ∧ PacketCrcOk (arrived seq more d)) :=
        fun hb =>
        hd ((packetCrcOk_packetWith _ _ _ _).mp hb.2)
      have hno := flag_stuck hlen ds ⟨le_rfl, by decide⟩ (h.reject (by decide) hbad).1
      rw [hcons, List.map_cons, final_cons]
      exact ⟨⟨fun hf => absurd hf hno, fun hboth => absurd (hboth.1 d List.mem_cons_self) hd⟩,
        fun hf => absurd hf hno⟩

/-- **Damage that goes unnoticed.** The device announces the file it has got, whatever it is,
exactly if every packet and every lane of the file has the XOR of what was sent. -/
theorem damage_passes_iff {ds : List Damaged} (hpos : sentFile ds ≠ [])
    (hfit : (sentFile ds).length ≤ flagAddr) {s : OtaContext × Eeprom} (hs : s.1.state = .idle) :
    let e := (final otaStep s (.start (startOfFile (sentFile ds)) ::
      (arrivedFrom 0 ds).map .data)).2
    (flagByte e = ctrlOtaFlagReady ↔
        (∀ d ∈ ds, d.Unseen) ∧ SameLanes (gotFile ds) (sentFile ds)) ∧
      (flagByte e = ctrlOtaFlagReady →
        Downloaded (UInt32.ofNat (sentFile ds).length) (otaFileCrcCalculate (sentFile ds))
          (gotFile ds) e) := by
  have hne : ds ≠ [] := by
    rintro rfl
    exact hpos rfl
  have hlen := toNat_length_file hfit
  have hlenPos : UInt32.ofNat (sentFile ds).length ≠ 0 := by
    rw [Ne, ← UInt32.toNat_inj, hlen]
    exact fun h0 => hpos (List.length_eq_zero_iff.mp h0)
  obtain ⟨hexpect, -⟩ := expecting_start hpos hfit hs
  have harrive := arrive hne hexpect hlenPos (hlen.trans (length_gotFile ds).symm)
  refine ⟨harrive.1.trans (and_congr_right fun _ => ?_), harrive.2⟩
  rw [eq_comm]
  exact otaFileCrc_eq_iff (length_gotFile ds)

/-- A packet in which two bytes of one lane have changed places, one that arrives as it was sent,
and one in which a bit of the same lane is wrong twice. -/
def unseenDamage : List Damaged :=
  [⟨[1, 2, 3, 4, 5, 6, 7, 8], ⟨[5, 2, 3, 4, 1, 6, 7, 8], by decide⟩, rfl⟩,
    ⟨[9, 10, 11, 12], ⟨[9, 10, 11, 12], by decide⟩, rfl⟩,
    ⟨[13, 14, 15, 16, 17, 18], ⟨[29, 14, 15, 16, 1, 18], by decide⟩, rfl⟩]

/-- An erased device takes the damaged file for the one that was sent. -/
theorem damage_passes_unseen :
    Downloaded 18 (otaFileCrcCalculate (sentFile unseenDamage))
      [5, 2, 3, 4, 1, 6, 7, 8, 9, 10, 11, 12, 29, 14, 15, 16, 1, 18]
      (final otaStep (otaReset, fun _ => 0xFF)
        (.start (startOfFile (sentFile unseenDamage)) ::
          (arrivedFrom 0 unseenDamage).map .data)).2 :=
  have h := @damage_passes_iff unseenDamage (by decide) (by decide) (otaReset, fun _ => 0xFF) rfl
  h.2 (h.1.mpr ⟨by decide, by decide⟩)

end BleHidUart.Ota.Damage
