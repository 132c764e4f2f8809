import BleHidUart.V3.McuData

/-!
# Junk before a frame

`FramingFails` says that no frame starts at the head of a buffer, whatever follows. The parser does
not go on with the next byte after each such failure: it gives up the whole buffer at a `53` without
`35`, and it passes over a `55` packet with a wrong trailer as a whole, which may end behind the
head of a real frame. `resync_iff` says exactly which junk is passed over.
-/

namespace BleHidUart.V3.Resync

open BleHidUart.Board BleHidUart.Lib.Framing BleHidUart.Lib.Word BleHidUart.V3.Deframe
open BleHidUart.V3.McuData BleHidUart.V3.Parser

/-- **No frame starts at the head**: the byte is no head, the second byte of the head is missing,
the command is unknown, or the packet is complete and has another last byte. -/
def FramingFails (xs : List UInt8) : Prop :=
  byteAt xs 0 ≠ appFrameHead ∧ byteAt xs 0 ≠ v3FrameHead0 ∨
    byteAt xs 0 = v3FrameHead0 ∧ byteAt xs 1 ≠ v3FrameHead1 ∨
    byteAt xs 0 = appFrameHead ∧ appPktLen (byteAt xs 1) = none ∨
    byteAt xs 0 = appFrameHead ∧
      ∃ n ∈ appPktLen (byteAt xs 1), n ≤ xs.length ∧ byteAt xs (n - 1) ≠ appFrameTrail

/-- No frame starts in the junk `p` before `rest`. -/
def JunkBefore (p rest : List UInt8) : Prop := ∀ i, i < p.length → FramingFails ((p ++ rest).drop i)

instance (xs : List UInt8) : Decidable (FramingFails xs) := by unfold FramingFails; infer_instance

instance (p rest : List UInt8) : Decidable (JunkBefore p rest) := by
  unfold JunkBefore; infer_instance

/-- **Junk the parser passes over**: it is cut into bytes that are no head, heads `55` without a
command, and whole `55` packets with a wrong last byte. -/
inductive Passable : List UInt8 → List UInt8 → Prop
  | nil (rest : List UInt8) : Passable [] rest
  | byte {p rest : List UInt8} (x : UInt8) : x ≠ appFrameHead → x ≠ v3FrameHead0 → Passable p rest →
      Passable (x :: p) rest
  | unknown {p rest : List UInt8} : appPktLen (byteAt (p ++ rest) 0) = none → Passable p rest →
      Passable (appFrameHead :: p) rest
  | packet {p rest : List UInt8} {n : ℕ} : appPktLen (byteAt (p ++ rest) 0) = some n →
      n ≤ p.length + 1 → byteAt (appFrameHead :: p) (n - 1) ≠ appFrameTrail →
      Passable ((appFrameHead :: p).drop n) rest → Passable (appFrameHead :: p) rest

theorem JunkBefore.drop {p rest : List UInt8} (h : JunkBefore p rest) {n : ℕ} (hn : n ≤ p.length) :
    JunkBefore (p.drop n) rest := by
  intro i hi
  rw [List.length_drop] at hi
  have hfail := h (n + i) (by omega)
  rwa [← List.drop_drop, List.drop_append_of_le_length hn] at hfail

theorem JunkBefore.head {x : UInt8} {p rest : List UInt8} (h : JunkBefore (x :: p) rest) :
    FramingFails (x :: (p ++ rest)) := h 0 (by simp)

theorem JunkBefore.tail {x : UInt8} {p rest : List UInt8} (h : JunkBefore (x :: p) rest) :
    JunkBefore p rest := h.drop (n := 1) (by simp)

theorem heads_ne : appFrameHead ≠ v3FrameHead0 := by decide

/-! ### One piece of the junk -/

section Piece
variable {p rest : List UInt8}

theorem passable_byte {x : UInt8} (h1 : x ≠ appFrameHead) (h2 : x ≠ v3FrameHead0) :
    Passable (x :: p) rest ↔ Passable p rest := by
  refine ⟨fun h => ?_, .byte x h1 h2⟩
  cases h with
  | byte _ _ _ h => exact h
  | unknown | packet => exact absurd rfl h1

theorem passable_unknown (hpkt : appPktLen (byteAt (p ++ rest) 0) = none) :
    Passable (appFrameHead :: p) rest ↔ Passable p rest := by
  refine ⟨fun h => ?_, .unknown hpkt⟩
  cases h with
  | byte _ hne => exact absurd rfl hne
  | unknown _ h => exact h
  | packet hsome => cases hpkt.symm.trans hsome

theorem passable_packet {m : ℕ} (hpkt : appPktLen (byteAt (p ++ rest) 0) = some m) :
    Passable (appFrameHead :: p) rest ↔ m ≤ p.length + 1 ∧
      byteAt (appFrameHead :: p) (m - 1) ≠ appFrameTrail ∧
        Passable ((appFrameHead :: p).drop m) rest := by
  constructor
  · intro h
    cases h with
    | byte _ hne => exact absurd rfl hne
    | unknown hnone => cases hnone.symm.trans hpkt
    | packet hsome hle htrail h =>
      obtain rfl := Option.some.inj (hpkt.symm.trans hsome)
      exact ⟨hle, htrail, h⟩
  · rintro ⟨hle, htrail, h⟩
    exact .packet hpkt hle htrail h

theorem not_passable_v3Head : ¬ Passable (v3FrameHead0 :: p) rest := by
  intro h
  cases h with
  | byte _ _ hne => exact absurd rfl hne

theorem FramingFails.packet {xs : List UInt8} (h : FramingFails (appFrameHead :: xs)) {m : ℕ}
    (hpkt : appPktLen (byteAt xs 0) = some m) :
    m ≤ xs.length + 1 ∧ byteAt (appFrameHead :: xs) (m - 1) ≠ appFrameTrail := by
  have hcmd : appPktLen (byteAt (appFrameHead :: xs) 1) = some m := hpkt
  rcases h with h | h | h | ⟨-, m', hm', hle, htrail⟩
  · exact absurd rfl h.1
  · exact absurd h.1 heads_ne
  · cases h.2.symm.trans hcmd
  · obtain rfl : m' = m := Option.some.inj (hm'.symm.trans hcmd)
    exact ⟨hle, htrail⟩

theorem FramingFails.v3Head {xs : List UInt8} (h : FramingFails (v3FrameHead0 :: xs)) :
    byteAt xs 0 ≠ v3FrameHead1 := by
  rcases h with h | h | h | h
  · exact absurd rfl h.2
  · exact h.2
  · exact absurd h.1 heads_ne.symm
  · exact absurd h.1 heads_ne.symm

end Piece

/-! ### The parser on junk and a frame -/

variable {rest : List UInt8} {k : HandlerCall}

/-- A frame whose first byte was passed over is lost: too few bytes are left for it. -/
theorem deframe_ne_of_short (hrec : Recognises (v3Scan true) rest k) {xs : List UInt8}
    (h : xs.length < rest.length) : deframe (v3Scan true) xs ≠ [k] := by
  intro heq
  have hlen := length_deframe_le (sound_v3Scan true) xs
  have hitems : k.frame = rest := hrec.items_eq (sound_v3Scan true)
  rw [heq, List.flatMap_singleton, hitems] at hlen
  omega

theorem scan_junk_v3Head {p : List UInt8} (hjunk : JunkBefore (v3FrameHead0 :: p) rest) :
    v3Scan true (v3FrameHead0 :: (p ++ rest)) = .stop := by
  rw [v3Scan_v3, if_pos (.inl hjunk.head.v3Head)]

theorem scan_junk_unknown {p : List UInt8} (hthree : 3 ≤ rest.length)
    (hpkt : appPktLen (byteAt (p ++ rest) 0) = none) :
    v3Scan true (appFrameHead :: (p ++ rest)) = .skip := by
  have hlen : (p ++ rest).length = p.length + rest.length := List.length_append
  rw [v3Scan_app, if_neg (by omega), hpkt]

/-- The parser passes over a whole packet at a head `55` of the junk. -/
theorem scan_junk_packet {p : List UInt8} {m : ℕ} (hthree : 3 ≤ rest.length)
    (hjunk : JunkBefore (appFrameHead :: p) rest)
    (hpkt : appPktLen (byteAt (p ++ rest) 0) = some m) :
    v3Scan true (appFrameHead :: (p ++ rest)) = .packet m none := by
  have hlen : (p ++ rest).length = p.length + rest.length := List.length_append
  obtain ⟨hle, htrail⟩ := hjunk.head.packet hpkt
  rw [v3Scan_app, if_neg (by omega), hpkt]
  dsimp only
  rw [if_neg (by omega), if_neg htrail]

/-- A packet in the junk: the parser goes on behind it, and misses the frame if the packet reaches
into it. -/
theorem deframe_junk_packet (hrec : Recognises (v3Scan true) rest k) (hthree : 3 ≤ rest.length)
    {p : List UInt8} {m : ℕ} (hjunk : JunkBefore (appFrameHead :: p) rest)
    (hpkt : appPktLen (byteAt (p ++ rest) 0) = some m)
    (hnext : m ≤ p.length + 1 → (deframe (v3Scan true) ((appFrameHead :: p).drop m ++ rest) = [k] ↔
      Passable ((appFrameHead :: p).drop m) rest)) :
    deframe (v3Scan true) (appFrameHead :: (p ++ rest)) = [k] ↔
        Passable (appFrameHead :: p) rest := by
  have hm := appPktLen_pos hpkt
  have htrail := (hjunk.head.packet hpkt).2
  rw [deframe_packet (sound_v3Scan true) (scan_junk_packet hthree hjunk hpkt), Option.toList_none,
    List.nil_append, ← List.cons_append, passable_packet hpkt]
  rw [← List.cons_append] at htrail
  by_cases hin : m ≤ p.length + 1
  · have hdrop : m ≤ (appFrameHead :: p).length := hin
    rw [byteAt, List.getD_append _ _ _ _ (by omega)] at htrail
    rw [List.drop_append_of_le_length hdrop, hnext hin]
    exact ⟨fun h => ⟨hin, htrail, h⟩, fun h => h.2.2⟩
  · refine iff_of_false (deframe_ne_of_short hrec ?_) fun h => hin h.1
    rw [List.length_drop, List.length_append, List.length_cons]
    omega

/-- **The parser finds the frame behind the junk exactly when it can pass over the junk.** Induction
on the length of the junk that is left. -/
theorem deframe_junk_iff (hrec : Recognises (v3Scan true) rest k) (hthree : 3 ≤ rest.length)
    (n : ℕ) : ∀ p : List UInt8, p.length ≤ n → JunkBefore p rest →
      (deframe (v3Scan true) (p ++ rest) = [k] ↔ Passable p rest) := by
  have hdone : deframe (v3Scan true) rest = [k] := by
    have h := deframe_append (sound_v3Scan true) hrec []
    rwa [List.append_nil, deframe_nil] at h
  induction n with
  | zero =>
    intro p hp _
    obtain rfl := List.length_eq_zero_iff.mp (Nat.le_zero.mp hp)
    exact iff_of_true hdone (.nil rest)
  | succ n ih =>
    intro p hp hjunk
    cases p with
    | nil => exact iff_of_true hdone (.nil rest)
    | cons x p =>
      rw [List.length_cons] at hp
      rw [List.cons_append]
      by_cases hv3 : x = v3FrameHead0
      · subst hv3
        rw [deframe_stop (scan_junk_v3Head hjunk)]
        exact iff_of_false (by simp) not_passable_v3Head
      by_cases happ : x = appFrameHead
      swap
      · rw [deframe_skip_byte happ hv3, ih p (by omega) hjunk.tail, passable_byte happ hv3]
      subst happ
      cases hpkt : appPktLen (byteAt (p ++ rest) 0) with
      | none =>
        rw [deframe_skip (scan_junk_unknown hthree hpkt), ih p (by omega) hjunk.tail,
          passable_unknown hpkt]
      | some m =>
        have hm := appPktLen_pos hpkt
        refine deframe_junk_packet hrec hthree hjunk hpkt fun hin => ih _ ?_ (hjunk.drop hin)
        rw [List.length_drop, List.length_cons]
        omega

theorem three_le_length_bytes (f : WireFrame) : 3 ≤ f.bytes.length := by
  rcases f with ⟨b0, b1, b2, b3⟩ | a | f | f | (f | f | f | f)
  · exact Nat.le_of_ble_eq_true rfl
  · exact le_rfl
  · exact le_trans (by decide) f.size.ge
  · exact le_trans (by decide) f.size.ge
  · exact le_trans (by decide) f.size.1
  · exact le_trans (by decide) f.size.1
  · exact le_trans (by decide) f.size.1
  · exact le_trans (by decide) f.size.1

/-- **Resynchronisation.** A frame behind junk in which no frame starts is dispatched, and nothing
else, exactly when the parser can pass over the junk. -/
theorem resync_iff (p : List UInt8) (f : WireFrame) (hlen : (p ++ f.bytes).length ≤ 65535)
    (hjunk : JunkBefore p f.bytes) :
    writeCalls (p ++ f.bytes) = [f.call] ↔ Passable p f.bytes := by
  have hcalls : writeCalls (p ++ f.bytes) = deframe (v3Scan true) (p ++ f.bytes) :=
    v3HandleAppData_eq hlen
  rw [hcalls]
  exact deframe_junk_iff (recognises_wireFrame f) (three_le_length_bytes f) p.length p le_rfl hjunk

/-- Junk with a head `55` and an unknown command. -/
theorem resync_unknown : writeCalls ([0x00, 0x55, 0x09] ++ (WireFrame.app .unlock).bytes) =
    [(WireFrame.app .unlock).call] := by
  refine (resync_iff [0x00, 0x55, 0x09] (.app .unlock) (by decide) (by decide)).mpr ?_
  exact .byte _ (by decide) (by decide) (.unknown rfl (.byte _ (by decide) (by decide) (.nil _)))

/-- **A single `53` before a frame hides it**: the parser takes it for the start of a `53 35` frame
that is not there and gives up the buffer. -/
theorem not_resync_v3Head : ¬ ∀ (p : List UInt8) (f : WireFrame), (p ++ f.bytes).length ≤ 65535 →
    JunkBefore p f.bytes → writeCalls (p ++ f.bytes) = [f.call] := by
  intro hall
  have h := hall [0x53] (.app .unlock) (by decide) (by decide)
  exact absurd h (by decide)

end BleHidUart.V3.Resync
