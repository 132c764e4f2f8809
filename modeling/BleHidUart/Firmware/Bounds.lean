import BleHidUart.Firmware.Frames
import BleHidUart.V3.LoneHead

/-!
# The parser and the end of its buffer

`firmware_reads`: the computations with reads do what the functions on lists do, and the offset
never wraps. The parser itself reads one byte behind the buffer in one place: it looks at the byte
after a `53` before it looks at the length. `reads_inside_iff` says that this is the only way to
leave the buffer.
-/

namespace BleHidUart.Firmware.Bounds

open BleHidUart.Board BleHidUart.Lib.Framing BleHidUart.Lib.Memory BleHidUart.Lib.ReadLog
open BleHidUart.Lib.ReadLog.Reading BleHidUart.Lib.Word BleHidUart.Ota.Handlers
open BleHidUart.Firmware.Dispatch BleHidUart.Firmware.Frames BleHidUart.Firmware.Reads
open BleHidUart.V3.Bridge BleHidUart.V3.Deframe BleHidUart.V3.Handlers BleHidUart.V3.LoneHead
open BleHidUart.V3.Parser

/-! ### Rounds of the parser -/

theorem dispatch_blank (fromApp : Bool) (cmd : UInt8) (frame : List UInt8) (n : ℕ) :
    v3Dispatch fromApp cmd [] n = (v3Dispatch fromApp cmd frame n).map blank := by
  unfold v3Dispatch
  split_ifs <;> rfl

/-- What a round decides, without the bytes of the frame. -/
def blankScan : Scan HandlerCall → Scan HandlerCall
  | .skip => .skip
  | .packet n out => .packet n (out.map blank)
  | .stop => .stop

section Round
variable {mem : ℕ → UInt8} {n : ℕ}

/-- Only the OTA commands look at the length, for the others it makes no difference. -/
theorem yields_pktLen (cmd : UInt8) {i : ℕ} (hi : i < n) :
    Yields n (v3PktLenReads cmd i) mem (v3PktLen cmd (mem i)) := by
  unfold v3PktLenReads
  by_cases hfix : cmd = v3CmdHandshake ∨ cmd = v3CmdReadCtrl ∨ cmd = v3CmdWriteCtrl
  · rw [if_pos hfix]
    have hsame : v3PktLen cmd (mem i) = v3PktLen cmd 0 := by
      rcases hfix with h | h | h <;> rw [h] <;> rfl
    rw [hsame]
    exact yields_pure _
  rw [if_neg hfix]
  by_cases hota : cmd = otaCmdStart ∨ cmd = otaCmdData ∨ cmd = otaCmdDataRetry ∨
    cmd = otaCmdEraseRetry
  · rw [if_pos hota]
    exact yields_bind (yields_read hi) (yields_pure _)
  · rw [if_neg hota]
    have hnone : v3PktLen cmd (mem i) = none := by
      simp only [not_or] at hfix hota
      unfold v3PktLen
      rw [if_neg hfix.1, if_neg (not_or.mpr hfix.2), if_neg hota.1, if_neg hota.2.1,
        if_neg (not_or.mpr hota.2.2)]
    rw [hnone]
    exact yields_pure _

section Rest
variable {len offset : ℕ} {xs : List UInt8} (hlen : offset + xs.length = len)
  (hmem : ∀ i, i < xs.length → mem (offset + i) = byteAt xs i)
include hlen hmem

theorem yields_at {i : ℕ} (hi : i < xs.length) :
    Yields len (read (offset + i)) mem (byteAt xs i) := by
  rw [← hmem i hi]
  exact yields_read (by omega)

theorem yields_appRound (fromApp : Bool) (hpos : 0 < xs.length)
    (happ : byteAt xs 0 = appFrameHead) :
    Yields len (v3RoundReads len fromApp offset) mem (blankScan (v3Scan fromApp xs)) := by
  have hhead : ¬ (byteAt xs 0 ≠ appFrameHead ∧ byteAt xs 0 ≠ v3FrameHead0) := fun h => h.1 happ
  refine yields_bind (yields_at hlen hmem hpos) ?_
  unfold v3Scan
  rw [if_neg hhead, if_neg hhead, if_pos happ, if_pos happ]
  by_cases htwo : xs.length ≤ 2
  · rw [if_pos (by omega), if_pos htwo]
    exact yields_pure _
  rw [if_neg (by omega), if_neg htwo]
  refine yields_bind (yields_at hlen hmem (by omega)) ?_
  cases hpkt : appPktLen (byteAt xs 1) with
  | none => exact yields_pure _
  | some m =>
    have hm := appPktLen_pos hpkt
    dsimp only
    by_cases hshort : xs.length < m
    · rw [if_pos (by omega), if_pos hshort]
      exact yields_pure _
    · rw [if_neg (by omega), if_neg hshort, Nat.add_sub_assoc hm]
      refine yields_bind (yields_at hlen hmem (by omega)) ?_
      have hblank : blankScan (.packet m (if byteAt xs (m - 1) = appFrameTrail then
            some (.appCmd (byteAt xs 1) (xs.take m)) else none)) =
          .packet m (if byteAt xs (m - 1) = appFrameTrail then
            some (.appCmd (byteAt xs 1) []) else none) := by
        split_ifs <;> rfl
      rw [hblank]
      exact yields_pure _

theorem yields_v3Round (fromApp : Bool) (hone : 1 < xs.length) (hv3 : byteAt xs 0 = v3FrameHead0) :
    Yields len (v3RoundReads len fromApp offset) mem (blankScan (v3Scan fromApp xs)) := by
  have hhead : ¬ (byteAt xs 0 ≠ appFrameHead ∧ byteAt xs 0 ≠ v3FrameHead0) := fun h => h.2 hv3
  have happ : ¬ byteAt xs 0 = appFrameHead := by
    rw [hv3]
    decide
  have hthree : len ≤ offset + 3 ↔ xs.length ≤ 3 := by omega
  have hpos : 0 < xs.length := by omega
  refine yields_bind (yields_at hlen hmem hpos) ?_
  unfold v3Scan
  rw [if_neg hhead, if_neg hhead, if_neg happ, if_neg happ]
  refine yields_bind (yields_at hlen hmem hone) ?_
  by_cases hstop : byteAt xs 1 ≠ v3FrameHead1 ∨ xs.length ≤ 3
  · rw [if_pos (hstop.imp_right hthree.mpr), if_pos hstop]
    exact yields_pure _
  rw [if_neg fun h => hstop (h.imp_right hthree.mp), if_neg hstop]
  have hfour : 3 < xs.length := Nat.not_le.mp fun h => hstop (.inr h)
  refine yields_bind (yields_at hlen hmem (by omega)) ?_
  have hsize : Yields len (v3PktLenReads (byteAt xs 2) (offset + 3)) mem
      (v3PktLen (byteAt xs 2) (mem (offset + 3))) := yields_pktLen _ (by omega)
  rw [hmem 3 hfour] at hsize
  refine yields_bind hsize ?_
  cases hpkt : v3PktLen (byteAt xs 2) (byteAt xs 3) with
  | none => exact yields_pure _
  | some m =>
    dsimp only
    by_cases hshort : xs.length < m
    · rw [if_pos (by omega), if_pos hshort]
      exact yields_pure _
    · rw [if_neg (by omega), if_neg hshort, dispatch_blank fromApp _ (xs.take m)]
      exact yields_pure _

/-- **A round stays in the buffer** and decides as on the rest of the buffer as a list, unless this
rest is a single `53`. -/
theorem yields_round (fromApp : Bool) (hne : xs ≠ []) (hlone : xs ≠ [v3FrameHead0]) :
    Yields len (v3RoundReads len fromApp offset) mem (blankScan (v3Scan fromApp xs)) := by
  have hpos : 0 < xs.length := List.length_pos_iff.mpr hne
  by_cases happ : byteAt xs 0 = appFrameHead
  · exact yields_appRound hlen hmem fromApp hpos happ
  by_cases hv3 : byteAt xs 0 = v3FrameHead0
  · refine yields_v3Round hlen hmem fromApp ?_ hv3
    by_contra hone
    obtain ⟨x, rfl⟩ : ∃ x, xs = [x] := List.length_eq_one_iff.mp (by omega)
    exact hlone (congrArg (fun y => [y]) hv3)
  · refine yields_bind (yields_at hlen hmem hpos) ?_
    unfold v3Scan
    rw [if_pos ⟨happ, hv3⟩, if_pos ⟨happ, hv3⟩]
    exact yields_pure _

end Rest

/-- **At a last byte `53`** the round reads behind the buffer, and gives up whatever it finds
there. -/
theorem round_lone (fromApp : Bool) {len offset : ℕ} (hlen : offset + 1 = len)
    (hmem : mem offset = v3FrameHead0) :
    (v3RoundReads len fromApp offset).value mem = .stop ∧
      ¬ Within len (v3RoundReads len fromApp offset) mem := by
  have hne : ¬ v3FrameHead0 = appFrameHead := by decide
  have hhead : ¬ (v3FrameHead0 ≠ appFrameHead ∧ v3FrameHead0 ≠ v3FrameHead0) := fun h => h.2 rfl
  constructor
  · have hfirst : Yields (len + 1) (read offset) mem v3FrameHead0 := by
      rw [← hmem]
      exact yields_read (by omega)
    refine (yields_bind hfirst ?_).1
    rw [if_neg hhead, if_neg hne]
    refine yields_bind (yields_read (by omega)) ?_
    rw [if_pos (.inr (by omega))]
    exact yields_pure _
  · intro h
    unfold v3RoundReads at h
    have hrest := (within_bind.mp h).2
    simp only [value_read, hmem, if_neg hhead, if_neg hne] at hrest
    have hlt := within_read.mp (within_bind.mp hrest).1
    omega

end Round

/-! ### The loop -/

section Loop
variable {mem : ℕ → UInt8} {len : UInt16} {fromApp : Bool} {n : ℕ} {offset : UInt16}

theorem v3Scan_lone (fromApp : Bool) : v3Scan fromApp [v3FrameHead0] = .stop := by
  cases fromApp <;> rfl

/-! One round, whatever it decides. -/

theorem parse_stop (fuel : ℕ) (b : Bridge) (clock : ℕ → UInt32) (hoff : ¬ len ≤ offset)
    (h : (v3RoundReads len.toNat fromApp offset.toNat).value mem = .stop) :
    (v3ParseReads len fromApp (fuel + 1) offset b clock).value mem = some ⟨b, [], []⟩ ∧
      (Within n (v3ParseReads len fromApp (fuel + 1) offset b clock) mem ↔
        Within n (v3RoundReads len.toNat fromApp offset.toNat) mem) := by
  rw [v3ParseReads, if_neg hoff, value_bind, within_bind, h]
  exact ⟨rfl, and_iff_left (within_pure _)⟩

theorem parse_skip (fuel : ℕ) (b : Bridge) (clock : ℕ → UInt32) (hoff : ¬ len ≤ offset)
    (h : (v3RoundReads len.toNat fromApp offset.toNat).value mem = .skip) :
    (v3ParseReads len fromApp (fuel + 1) offset b clock).value mem =
        ((v3ParseReads len fromApp fuel (offset + 1) b clock).value mem).map
        (.after [] (offset, 1)) ∧
      (Within n (v3ParseReads len fromApp (fuel + 1) offset b clock) mem ↔
        Within n (v3RoundReads len.toNat fromApp offset.toNat) mem ∧
          Within n (v3ParseReads len fromApp fuel (offset + 1) b clock) mem) := by
  rw [v3ParseReads, if_neg hoff, value_bind, within_bind, h]
  exact ⟨rfl, and_congr_right fun _ => within_bind.trans (and_iff_left (within_pure _))⟩

theorem parse_passed (fuel : ℕ) (b : Bridge) (clock : ℕ → UInt32) (hoff : ¬ len ≤ offset) {m : ℕ}
    (h : (v3RoundReads len.toNat fromApp offset.toNat).value mem = .packet m none) :
    (v3ParseReads len fromApp (fuel + 1) offset b clock).value mem =
        ((v3ParseReads len fromApp fuel (offset + UInt16.ofNat m) b clock).value mem).map
          (.after [] (offset, UInt16.ofNat m)) ∧
      (Within n (v3ParseReads len fromApp (fuel + 1) offset b clock) mem ↔
        Within n (v3RoundReads len.toNat fromApp offset.toNat) mem ∧
          Within n (v3ParseReads len fromApp fuel (offset + UInt16.ofNat m) b clock) mem) := by
  rw [v3ParseReads, if_neg hoff, value_bind, within_bind, h]
  exact ⟨rfl, and_congr_right fun _ => within_bind.trans (and_iff_left (within_pure _))⟩

/-- The handler stays in the buffer, so the packet is decided by the rounds. -/
theorem parse_called (fuel : ℕ) (b : Bridge) (clock : ℕ → UInt32) (hoff : ¬ len ≤ offset) {m : ℕ}
    {k : HandlerCall} {c : Bridge × List Effect}
    (h : (v3RoundReads len.toNat fromApp offset.toNat).value mem = .packet m (some k))
    (hcall : Yields n ((callHandlerReads b k (clock 0)).shift offset.toNat) mem c) :
    (v3ParseReads len fromApp (fuel + 1) offset b clock).value mem =
        ((v3ParseReads len fromApp fuel (offset + UInt16.ofNat m) c.1 fun i => clock (i + 1)).value
          mem).map (.after c.2 (offset, UInt16.ofNat m)) ∧
      (Within n (v3ParseReads len fromApp (fuel + 1) offset b clock) mem ↔
        Within n (v3RoundReads len.toNat fromApp offset.toNat) mem ∧
          Within n (v3ParseReads len fromApp fuel (offset + UInt16.ofNat m) c.1
            fun i => clock (i + 1)) mem) := by
  obtain ⟨rfl, hin⟩ := hcall
  rw [v3ParseReads, if_neg hoff, value_bind, within_bind, h]
  refine ⟨rfl, and_congr_right fun _ => within_bind.trans ((and_iff_right hin).trans ?_)⟩
  exact within_bind.trans (and_iff_left (within_pure _))

/-- The outcome of the run is `s`, and the offset stays in the buffer. -/
structure RunsAs (len : UInt16) (r : ParseRun) (s : Bridge × List Effect) : Prop where
  outcome : (r.bridge, r.effects) = s
  moves : ∀ m ∈ r.moves, m.1.toNat + m.2.toNat ≤ len.toNat

theorem RunsAs.after {r : ParseRun} {s : Bridge × List Effect} (h : RunsAs len r s) {o k : UInt16}
    (hk : o.toNat + k.toNat ≤ len.toNat) (fx : List Effect) :
    RunsAs len (r.after fx (o, k)) (s.1, fx ++ s.2) where
  outcome := by
    rw [← h.outcome]
    rfl
  moves := by
    intro m hm
    rcases List.mem_cons.mp hm with rfl | hm
    · exact hk
    · exact h.moves m hm

theorem runsAs_nil (len : UInt16) (b : Bridge) : RunsAs len ⟨b, [], []⟩ (b, []) :=
  ⟨rfl, fun _ h => absurd h List.not_mem_nil⟩

theorem mem_of_rest {offset : ℕ} {xs : List UInt8} {n : ℕ} (hxs : (slice mem 0 n).drop offset = xs)
    {i : ℕ} (hi : i < xs.length) : mem (offset + i) = byteAt xs i := by
  subst hxs
  rw [List.length_drop, length_slice] at hi
  rw [byteAt_drop, byteAt, List.getD_eq_getElem _ _ (by rw [length_slice]; omega), getElem_slice,
    Nat.zero_add]

theorem toNat_offset_add {m : ℕ} (h : offset.toNat + m ≤ len.toNat) :
    (offset + UInt16.ofNat m).toNat = offset.toNat + m ∧
      offset.toNat + (UInt16.ofNat m).toNat ≤ len.toNat := by
  have hlen := len.toNat_lt
  have hm : (UInt16.ofNat m).toNat = m :=
    UInt16.toNat_ofNat_of_lt' (by simp only [UInt16.size]; omega)
  rw [UInt16.toNat_add, hm]
  exact ⟨Nat.mod_eq_of_lt (by omega), h⟩

/-- The loop from an offset on does what the scan does on the rest `xs` of the buffer, and stays in
the buffer unless the rest ends in a head. -/
structure Parses (mem : ℕ → UInt8) (len : UInt16) (fromApp : Bool) (fuel : ℕ) (offset : UInt16)
    (b : Bridge) (clock : ℕ → UInt32) (xs : List UInt8) : Prop where
  result : ∃ r, (v3ParseReads len fromApp fuel offset b clock).value mem = some r ∧
    RunsAs len r (runCalls b clock (deframe (v3Scan fromApp) xs))
  within : Within len.toNat (v3ParseReads len fromApp fuel offset b clock) mem ↔ ¬ EndsInHead xs

theorem parses_nil (fuel : ℕ) (b : Bridge) (clock : ℕ → UInt32) (hoff : len ≤ offset) :
    Parses mem len fromApp fuel offset b clock [] := by
  have hparse : v3ParseReads len fromApp fuel offset b clock = pure (some ⟨b, [], []⟩) := by
    cases fuel
    all_goals exact if_pos hoff
  refine ⟨⟨⟨b, [], []⟩, by rw [hparse]; rfl, ?_⟩, ?_⟩
  · rw [deframe_nil, runCalls_nil]
    exact runsAs_nil len b
  · rw [hparse]
    exact iff_of_true (within_pure _) not_endsInHead_nil

theorem parses_stop {xs : List UInt8} (fuel : ℕ) (b : Bridge) (clock : ℕ → UInt32)
    (hoff : ¬ len ≤ offset) (hscan : v3Scan fromApp xs = .stop)
    (h : (v3RoundReads len.toNat fromApp offset.toNat).value mem = .stop)
    (hends : Within len.toNat (v3RoundReads len.toNat fromApp offset.toNat) mem ↔ ¬ EndsInHead xs) :
    Parses mem len fromApp (fuel + 1) offset b clock xs := by
  obtain ⟨hv, hw⟩ := parse_stop fuel b clock hoff h
  refine ⟨⟨_, hv, ?_⟩, hw.trans hends⟩
  rw [deframe_stop hscan, runCalls_nil]
  exact runsAs_nil len b

theorem Parses.skip {fuel : ℕ} {b : Bridge} {clock : ℕ → UInt32} {x : UInt8} {xs : List UInt8}
    (h : Parses mem len fromApp fuel (offset + 1) b clock xs) (hoff : ¬ len ≤ offset)
    (hscan : v3Scan fromApp (x :: xs) = .skip)
    (hround : Yields len.toNat (v3RoundReads len.toNat fromApp offset.toNat) mem .skip)
    (hends : EndsInHead (x :: xs) ↔ EndsInHead xs) (hmove : offset.toNat + 1 ≤ len.toNat) :
    Parses mem len fromApp (fuel + 1) offset b clock (x :: xs) := by
  obtain ⟨r, hr, hruns⟩ := h.result
  obtain ⟨hv, hw⟩ := parse_skip fuel b clock hoff hround.1
  refine ⟨⟨_, hv.trans (congrArg _ hr), ?_⟩, hw.trans ((and_iff_right hround.2).trans ?_)⟩
  · rw [deframe_skip hscan]
    exact hruns.after hmove []
  · rw [hends]
    exact h.within

theorem Parses.passed {fuel m : ℕ} {b : Bridge} {clock : ℕ → UInt32} {xs : List UInt8}
    (h : Parses mem len fromApp fuel (offset + UInt16.ofNat m) b clock (xs.drop m))
    (hoff : ¬ len ≤ offset) (hscan : v3Scan fromApp xs = .packet m none)
    (hround : Yields len.toNat (v3RoundReads len.toNat fromApp offset.toNat) mem (.packet m none))
    (hends : EndsInHead xs ↔ EndsInHead (xs.drop m)) (hmove : offset.toNat + m ≤ len.toNat) :
    Parses mem len fromApp (fuel + 1) offset b clock xs := by
  obtain ⟨r, hr, hruns⟩ := h.result
  obtain ⟨hv, hw⟩ := parse_passed fuel b clock hoff hround.1
  refine ⟨⟨_, hv.trans (congrArg _ hr), ?_⟩, hw.trans ((and_iff_right hround.2).trans ?_)⟩
  · rw [deframe_packet (sound_v3Scan fromApp) hscan]
    exact hruns.after (toNat_offset_add hmove).2 []
  · rw [hends]
    exact h.within

theorem Parses.called {fuel m : ℕ} {b : Bridge} {clock : ℕ → UInt32} {xs : List UInt8}
    {k : HandlerCall}
    (h : Parses mem len fromApp fuel (offset + UInt16.ofNat m) (callHandler b k (clock 0)).1
      (fun i => clock (i + 1)) (xs.drop m))
    (hoff : ¬ len ≤ offset) (hscan : v3Scan fromApp xs = .packet m (some k))
    (hround : Yields len.toNat (v3RoundReads len.toNat fromApp offset.toNat) mem
      (.packet m (some (blank k))))
    (hends : EndsInHead xs ↔ EndsInHead (xs.drop m)) (hmove : offset.toNat + m ≤ len.toNat)
    (hmem : ∀ i, i < m → mem (offset.toNat + i) = byteAt xs i) :
    Parses mem len fromApp (fuel + 1) offset b clock xs := by
  obtain ⟨-, hm, hframe⟩ := sound_v3Scan fromApp _ m _ hscan
  have hk : k.frame = xs.take m := hframe k rfl
  have hklen : k.frame.length = m := by rw [hk, List.length_take_of_le hm]
  have hagrees : Agrees (fun i => mem (offset.toNat + i)) k.frame := by
    intro i hi
    rw [hklen] at hi
    rw [hk, byteAt_take hi]
    exact hmem i hi
  have hinside : offset.toNat + k.frame.length ≤ len.toNat := by omega
  have hcall := yields_shift (yields_call hagrees (fits_of_scan hscan) b (clock 0)) hinside
  rw [← callHandlerReads_blank] at hcall
  obtain ⟨r, hr, hruns⟩ := h.result
  obtain ⟨hv, hw⟩ := parse_called fuel b clock hoff hround.1 hcall
  refine ⟨⟨_, hv.trans (congrArg _ hr), ?_⟩, hw.trans ((and_iff_right hround.2).trans ?_)⟩
  · rw [deframe_packet (sound_v3Scan fromApp) hscan, Option.toList_some, List.singleton_append,
      runCalls_cons]
    exact hruns.after (toNat_offset_add hmove).2 _
  · rw [hends]
    exact h.within

/-- **The loop from an offset on**, with enough fuel. Induction on the fuel; each round is looked up
in the scan of the rest. -/
theorem parses_rest (fuel : ℕ) {xs : List UInt8} (b : Bridge) (clock : ℕ → UInt32)
    (hlen : offset.toNat + xs.length = len.toNat)
    (hxs : (slice mem 0 len.toNat).drop offset.toNat = xs) (hfuel : xs.length ≤ fuel) :
    Parses mem len fromApp fuel offset b clock xs := by
  induction fuel generalizing offset xs b clock with
  | zero =>
    obtain rfl := List.length_eq_zero_iff.mp (Nat.le_zero.mp hfuel)
    exact parses_nil 0 b clock (UInt16.le_iff_toNat_le.mpr hlen.ge)
  | succ fuel ih =>
    cases xs with
    | nil => exact parses_nil (fuel + 1) b clock (UInt16.le_iff_toNat_le.mpr hlen.ge)
    | cons x xs =>
    have hpos : 0 < (x :: xs).length := Nat.succ_pos _
    have hoff : ¬ len ≤ offset := fun h => by
      have hle := UInt16.le_iff_toNat_le.mp h
      omega
    have hmem : ∀ i, i < (x :: xs).length → mem (offset.toNat + i) = byteAt (x :: xs) i :=
      fun i hi => mem_of_rest hxs hi
    by_cases hlone : x :: xs = [v3FrameHead0]
    · rw [hlone] at hlen hmem ⊢
      obtain ⟨hval, hout⟩ := round_lone fromApp hlen (hmem 0 Nat.one_pos)
      exact parses_stop fuel b clock hoff (v3Scan_lone fromApp) hval
        (iff_of_false hout (not_not.mpr .head))
    have hround := yields_round hlen hmem fromApp (List.cons_ne_nil _ _) hlone
    have hone : xs ≠ [] ∨ x ≠ v3FrameHead0 := by
      by_contra hboth
      obtain ⟨hnil, hhead⟩ := not_or.mp hboth
      rw [not_not.mp hnil, not_not.mp hhead] at hlone
      exact hlone rfl
    have hends := endsInHead_scan fromApp hone
    -- the rest after a round that takes `m` bytes
    have hnext : ∀ m, m ≤ (x :: xs).length → 0 < m → ∀ b clock,
        Parses mem len fromApp fuel (offset + UInt16.ofNat m) b clock ((x :: xs).drop m) := by
      intro m hm hm0 b clock
      have hin : offset.toNat + m ≤ len.toNat := by omega
      have hadd := (toNat_offset_add hin).1
      refine ih b clock (by rw [hadd, List.length_drop]; omega) ?_ (by rw [List.length_drop]; omega)
      rw [hadd, ← List.drop_drop, hxs]
    cases hscan : v3Scan fromApp (x :: xs) with
    | stop =>
      rw [hscan] at hround hends
      exact parses_stop fuel b clock hoff hscan hround.1 (iff_of_true hround.2 hends.mp)
    | skip =>
      rw [hscan] at hround hends
      exact (hnext 1 hpos Nat.one_pos b clock).skip hoff hscan hround hends (by omega)
    | packet m out =>
      obtain ⟨hm0, hm, -⟩ := sound_v3Scan fromApp _ m out hscan
      rw [hscan] at hround hends
      cases out with
      | none => exact (hnext m hm hm0 b clock).passed hoff hscan hround hends (by omega)
      | some k =>
        exact (hnext m hm hm0 _ _).called hoff hscan hround hends (by omega)
          fun i hi => hmem i (by omega)

end Loop

/-! ### The whole buffer -/

theorem parses_buffer (mem : ℕ → UInt8) (len : UInt16) (fromApp : Bool) (b : Bridge)
    (clock : ℕ → UInt32) :
    Parses mem len fromApp len.toNat 0 b clock (slice mem 0 len.toNat) := by
  have hzero : (0 : UInt16).toNat = 0 := rfl
  have hlength : (slice mem 0 len.toNat).length = len.toNat := length_slice _ _ _
  exact parses_rest len.toNat b clock (by rw [hzero, hlength, Nat.zero_add]) rfl hlength.le

/-- **The loop with its reads does what the parser and the handlers do on lists**: it ends after at
most `len` rounds with the outcome of the calls, and the offset never leaves the buffer. -/
theorem firmware_reads (mem : ℕ → UInt8) (len : UInt16) (fromApp : Bool) (b : Bridge)
    (clock : ℕ → UInt32) :
    ∃ r, (v3ParseReads len fromApp len.toNat 0 b clock).value mem = some r ∧
      RunsAs len r (runCalls b clock (v3ParseBuffer (slice mem 0 len.toNat) len fromApp)) := by
  have hlength : (slice mem 0 len.toNat).length = len.toNat := length_slice _ _ _
  have hle : (slice mem 0 len.toNat).length ≤ 65535 := by
    have hlt := len.toNat_lt
    omega
  have hparse := v3ParseBuffer_eq hle fromApp
  rw [hlength, UInt16.ofNat_toNat] at hparse
  rw [hparse]
  exact (parses_buffer mem len fromApp b clock).result

/-- **What the parser may do on a buffer of `len` bytes**: it comes to its end, the offset does not
wrap, and it reads nothing at `len` or behind. -/
structure StaysInside (mem : ℕ → UInt8) (len : UInt16) (fromApp : Bool) (b : Bridge)
    (clock : ℕ → UInt32) : Prop where
  ends : ∃ r, (v3ParseReads len fromApp len.toNat 0 b clock).value mem = some r ∧
    ∀ m ∈ r.moves, m.1.toNat + m.2.toNat < 2 ^ 16
  within : ∀ i ∈ (v3ParseReads len fromApp len.toNat 0 b clock).log mem, i < len.toNat

/-- **The parser and its handlers read inside of the buffer, unless it ends in a head.** The memory
behind the buffer and the state of the bridge make no difference. -/
theorem reads_inside_iff (mem : ℕ → UInt8) (len : UInt16) (fromApp : Bool) (b : Bridge)
    (clock : ℕ → UInt32) :
    StaysInside mem len fromApp b clock ↔ ¬ EndsInHead (slice mem 0 len.toNat) := by
  have hwithin := (parses_buffer mem len fromApp b clock).within
  refine ⟨fun h => hwithin.mp h.within, fun h => ⟨?_, hwithin.mpr h⟩⟩
  obtain ⟨r, hr, hruns⟩ := firmware_reads mem len fromApp b clock
  refine ⟨r, hr, fun m hm => ?_⟩
  exact lt_of_le_of_lt (hruns.moves m hm) len.toNat_lt

/-- **A buffer of one byte `53`**: the parser reads the byte behind it. -/
theorem not_reads_inside_lone : ¬ ∀ (mem : ℕ → UInt8) (len : UInt16) (fromApp : Bool) (b : Bridge)
    (clock : ℕ → UInt32), 0 < len → StaysInside mem len fromApp b clock := by
  intro hall
  have h := (hall (fun _ => 0x53) 1 true { ee := fun _ => 0 } (fun _ => 0) (by decide)).within
  exact absurd (h 1 (by decide)) (by decide)

end BleHidUart.Firmware.Bounds
