import BleHidUart.V3.Deframe

/-!
# What the parser makes of the bytes of the controller

The receiver hands on strings `53 35 c …` with the length that `V3_frame_size_from_cmd` gives for
`c`. For a handshake nothing is called, for a reply its handler; the error frames are unknown to the
parser, which looks at their last four bytes once more and may find a short command of the app there
(`v3HandleMcuData_error`).
-/

namespace BleHidUart.V3.McuData

open BleHidUart.Board BleHidUart.Lib.Framing BleHidUart.Lib.Word BleHidUart.V3.Bridge
open BleHidUart.V3.Deframe BleHidUart.V3.Handlers BleHidUart.V3.Parser

/-- A string as the receiver delivers it. -/
structure McuFrame where
  bytes : List UInt8
  cmd : UInt8
  head : bytes.take 3 = [v3FrameHead0, v3FrameHead1, cmd]
  known : 0 < v3FrameSizeFromCmd cmd
  size : bytes.length = v3FrameSizeFromCmd cmd

/-- The commands of the app with frames of three bytes. -/
def IsShortCmd (cmd : UInt8) : Prop := cmd = 0x02 ∨ cmd = 0x03 ∨ cmd = 0x04 ∨ cmd = 0x05

instance (cmd : UInt8) : Decidable (IsShortCmd cmd) := by unfold IsShortCmd; infer_instance

/-- Three bytes that are a frame of the app. -/
def IsShortFrame (a b c : UInt8) : Prop := a = appFrameHead ∧ IsShortCmd b ∧ c = appFrameTrail

instance (a b c : UInt8) : Decidable (IsShortFrame a b c) := by unfold IsShortFrame; infer_instance

variable {fromApp : Bool}

theorem v3Scan_skip {x : UInt8} {xs : List UInt8} (h1 : x ≠ appFrameHead) (h2 : x ≠ v3FrameHead0) :
    v3Scan fromApp (x :: xs) = .skip := if_pos ⟨h1, h2⟩

theorem deframe_skip_byte {x : UInt8} {xs : List UInt8} (h1 : x ≠ appFrameHead)
    (h2 : x ≠ v3FrameHead0) : deframe (v3Scan fromApp) (x :: xs) = deframe (v3Scan fromApp) xs :=
  deframe_skip (v3Scan_skip h1 h2)

theorem v3Scan_app (xs : List UInt8) : v3Scan fromApp (appFrameHead :: xs) =
    if xs.length ≤ 1 then .stop
    else
      match appPktLen (byteAt xs 0) with
      | none => .skip
      | some n =>
        if xs.length + 1 < n then .stop
        else .packet n (if byteAt (appFrameHead :: xs) (n - 1) = appFrameTrail then
          some (.appCmd (byteAt xs 0) ((appFrameHead :: xs).take n)) else none) := by
  have h0 : byteAt (appFrameHead :: xs) 0 = appFrameHead := rfl
  unfold v3Scan
  rw [if_neg (fun h => h.1 h0), if_pos h0, List.length_cons]
  exact if_congr (by omega) rfl rfl

theorem v3Scan_v3 (xs : List UInt8) : v3Scan fromApp (v3FrameHead0 :: xs) =
    if byteAt xs 0 ≠ v3FrameHead1 ∨ xs.length ≤ 2 then .stop
    else
      match v3PktLen (byteAt xs 1) (byteAt xs 2) with
      | none => .skip
      | some n =>
        if xs.length + 1 < n then .stop
        else .packet n (v3Dispatch fromApp (byteAt xs 1) ((v3FrameHead0 :: xs).take n) n) := by
  have h0 : byteAt (v3FrameHead0 :: xs) 0 = v3FrameHead0 := rfl
  have hne : byteAt (v3FrameHead0 :: xs) 0 ≠ appFrameHead := by
    rw [h0]
    decide
  unfold v3Scan
  rw [if_neg (fun h => h.2 h0), if_neg hne, List.length_cons]
  exact if_congr (or_congr Iff.rfl (by omega)) rfl rfl

theorem v3Scan_app_unknown {b : UInt8} {xs : List UInt8} (hpkt : appPktLen b = none)
    (hlen : 1 < (b :: xs).length) : v3Scan fromApp (appFrameHead :: b :: xs) = .skip := by
  have hb : byteAt (b :: xs) 0 = b := rfl
  rw [v3Scan_app, if_neg (Nat.not_le.mpr hlen), hb, hpkt]

theorem v3Scan_app_incomplete {b : UInt8} {xs : List UInt8} {n : ℕ} (hpkt : appPktLen b = some n)
    (hlen : (b :: xs).length + 1 < n) : v3Scan fromApp (appFrameHead :: b :: xs) = .stop := by
  have hb : byteAt (b :: xs) 0 = b := rfl
  rw [v3Scan_app, hb, hpkt]
  split_ifs
  · rfl
  · exact if_pos hlen

theorem v3Scan_v3_unknown {c d : UInt8} {xs : List UInt8} (hpkt : v3PktLen c d = none) :
    v3Scan fromApp (v3FrameHead0 :: v3FrameHead1 :: c :: d :: xs) = .skip := by
  have hc : byteAt (v3FrameHead1 :: c :: d :: xs) 1 = c := rfl
  have hd : byteAt (v3FrameHead1 :: c :: d :: xs) 2 = d := rfl
  have hgo : ¬ (byteAt (v3FrameHead1 :: c :: d :: xs) 0 ≠ v3FrameHead1 ∨
      (v3FrameHead1 :: c :: d :: xs).length ≤ 2) :=
    not_or.mpr ⟨not_not.mpr rfl, by simp only [List.length_cons]; omega⟩
  rw [v3Scan_v3, if_neg hgo, hc, hd, hpkt]

theorem v3Scan_v3_incomplete {b c d : UInt8} {xs : List UInt8} {n : ℕ}
    (hpkt : v3PktLen c d = some n) (hlen : (b :: c :: d :: xs).length + 1 < n) :
    v3Scan fromApp (v3FrameHead0 :: b :: c :: d :: xs) = .stop := by
  have hc : byteAt (b :: c :: d :: xs) 1 = c := rfl
  have hd : byteAt (b :: c :: d :: xs) 2 = d := rfl
  rw [v3Scan_v3, hc, hd, hpkt]
  split_ifs
  · rfl
  · exact if_pos hlen

theorem appPktLen_short {cmd : UInt8} (h : IsShortCmd cmd) : appPktLen cmd = some 3 := by
  rcases h with rfl | rfl | rfl | rfl <;> rfl

theorem v3Scan_app_short {b : UInt8} (hs : IsShortCmd b) (c : UInt8) (xs : List UInt8) :
    v3Scan fromApp (appFrameHead :: b :: c :: xs) = .packet 3
      (if c = appFrameTrail then some (.appCmd b [appFrameHead, b, c]) else none) := by
  have hb : byteAt (b :: c :: xs) 0 = b := rfl
  rw [v3Scan_app, if_neg (by simp only [List.length_cons]; omega), hb, appPktLen_short hs]
  exact if_neg (by simp only [List.length_cons]; omega)

theorem appPktLen_cases (cmd : UInt8) :
    IsShortCmd cmd ∧ appPktLen cmd = some 3 ∨ ¬ IsShortCmd cmd ∧ cmd ≠ appFrameHead ∧
      appPktLen cmd = some 7 ∨
      ¬ IsShortCmd cmd ∧ appPktLen cmd = none := by
  by_cases hs : IsShortCmd cmd
  · exact .inl ⟨hs, appPktLen_short hs⟩
  obtain ⟨h2, h3, h4, h5⟩ : cmd ≠ 0x02 ∧ cmd ≠ 0x03 ∧ cmd ≠ 0x04 ∧ cmd ≠ 0x05 := by
    unfold IsShortCmd at hs
    tauto
  by_cases h1 : cmd = 0x01
  · refine .inr (.inl ⟨hs, ?_, ?_⟩)
    · rw [h1]
      decide
    · rw [h1]
      rfl
  · refine .inr (.inr ⟨hs, ?_⟩)
    unfold appPktLen
    rw [if_neg h1, if_neg h2, if_neg h3, if_neg h4, if_neg h5]

/-! ### Short strings -/

theorem deframe_short : ∀ {xs : List UInt8}, xs.length ≤ 2 → deframe (v3Scan fromApp) xs = [] := by
  intro xs
  induction xs with
  | nil => exact fun _ => deframe_nil
  | cons x xs ih =>
    intro hlen
    rw [List.length_cons] at hlen
    by_cases happ : x = appFrameHead
    · rw [happ]
      exact deframe_stop (by rw [v3Scan_app, if_pos (by omega)])
    · by_cases hv3 : x = v3FrameHead0
      · rw [hv3]
        exact deframe_stop (by rw [v3Scan_v3, if_pos (.inr (by omega))])
      · rw [deframe_skip_byte happ hv3]
        exact ih (by omega)

theorem deframe_three (a b c : UInt8) : deframe (v3Scan fromApp) [a, b, c] =
    if IsShortFrame a b c then [.appCmd b [a, b, c]] else [] := by
  have htwo : [b, c].length = 2 := rfl
  by_cases happ : a = appFrameHead
  · rw [happ]
    rcases appPktLen_cases b with ⟨hs, -⟩ | ⟨hs, -, hpkt⟩ | ⟨hs, hpkt⟩
    · have hrest : deframe (v3Scan fromApp) [] = [] := deframe_nil
      rw [deframe_packet (sound_v3Scan fromApp) (v3Scan_app_short hs c [])]
      by_cases hc : c = appFrameTrail
      · rw [if_pos hc, if_pos ⟨rfl, hs, hc⟩]
        exact congrArg _ hrest
      · rw [if_neg hc, if_neg fun h => hc h.2.2]
        exact hrest
    · rw [if_neg fun h => hs h.2.1]
      exact deframe_stop (v3Scan_app_incomplete hpkt (by omega))
    · rw [if_neg fun h => hs h.2.1, deframe_skip (v3Scan_app_unknown hpkt (by omega))]
      exact deframe_short htwo.le
  · rw [if_neg fun h => happ h.1]
    by_cases hv3 : a = v3FrameHead0
    · rw [hv3]
      exact deframe_stop (by rw [v3Scan_v3, if_pos (.inr htwo.le)])
    · rw [deframe_skip_byte happ hv3]
      exact deframe_short htwo.le

/-- Four bytes hold a short frame at their first or at their second place, but a `53` at the first
place ends the search or leads nowhere. -/
theorem deframe_four (a b c d : UInt8) : deframe (v3Scan fromApp) [a, b, c, d] =
    if IsShortFrame a b c then [.appCmd b [a, b, c]]
    else if a ≠ v3FrameHead0 ∧ IsShortFrame b c d then [.appCmd c [b, c, d]] else [] := by
  have hthree : [b, c, d].length = 3 := rfl
  have hne : appFrameHead ≠ v3FrameHead0 := by decide
  by_cases happ : a = appFrameHead
  · rw [happ]
    rcases appPktLen_cases b with ⟨hs, -⟩ | ⟨hs, hb, hpkt⟩ | ⟨hs, hpkt⟩
    · have hrest : deframe (v3Scan fromApp) [d] = [] := deframe_short (Nat.le_succ 1)
      rw [deframe_packet (sound_v3Scan fromApp) (v3Scan_app_short hs c [d])]
      by_cases hc : c = appFrameTrail
      · rw [if_pos hc, if_pos ⟨rfl, hs, hc⟩]
        exact congrArg _ hrest
      · have hsecond : ¬ (appFrameHead ≠ v3FrameHead0 ∧ IsShortFrame b c d) := by
          rintro ⟨-, hb, -⟩
          rw [hb] at hs
          exact absurd hs (by decide)
        rw [if_neg hc, if_neg fun h => hc h.2.2, if_neg hsecond]
        exact hrest
    · rw [if_neg fun h => hs h.2.1, if_neg fun h => hb h.2.1]
      exact deframe_stop (v3Scan_app_incomplete hpkt (by omega))
    · rw [if_neg fun h => hs h.2.1, deframe_skip (v3Scan_app_unknown hpkt (by omega)),
        deframe_three]
      exact if_congr (iff_and_self.mpr fun _ => hne) rfl rfl
  · rw [if_neg fun h => happ h.1]
    by_cases hv3 : a = v3FrameHead0
    · rw [hv3, if_neg fun h => h.1 rfl]
      by_cases hb : b = v3FrameHead1
      · cases hpkt : v3PktLen c d with
        | none =>
          have hno : ¬ IsShortFrame v3FrameHead1 c d := fun h => absurd h.1 (by decide)
          rw [hb, deframe_skip (v3Scan_v3_unknown hpkt), deframe_three, if_neg hno]
        | some n =>
          have hn := v3PktLen_ge hpkt
          exact deframe_stop (v3Scan_v3_incomplete hpkt (by omega))
      · exact deframe_stop (by rw [v3Scan_v3, if_pos (.inl hb)])
    · rw [deframe_skip_byte happ hv3, deframe_three]
      exact if_congr (iff_and_self.mpr fun _ => hv3) rfl rfl

/-! ### Delivered strings -/

/-- An error frame whose last four bytes hold a short frame of the app. -/
def HidesAppFrame (bs : List UInt8) : Prop :=
  (byteAt bs 2 = v3CmdWriteErr ∨ byteAt bs 2 = v3CmdReadErr) ∧
    (IsShortFrame (byteAt bs 3) (byteAt bs 4) (byteAt bs 5) ∨
      byteAt bs 3 ≠ v3FrameHead0 ∧ IsShortFrame (byteAt bs 4) (byteAt bs 5) (byteAt bs 6))

instance (bs : List UInt8) : Decidable (HidesAppFrame bs) := by unfold HidesAppFrame; infer_instance

theorem McuFrame.cmd_cases (f : McuFrame) : f.cmd = v3CmdHandshake ∨
    (f.cmd = v3CmdWriteCtrl ∨ f.cmd = v3CmdReadCtrl) ∨ f.cmd = v3CmdWriteErr ∨
      f.cmd = v3CmdReadErr := by
  have hknown := f.known
  unfold v3FrameSizeFromCmd at hknown
  split_ifs at hknown with h1 h2 h3
  · exact .inl h1
  · exact .inr (.inl h2.symm)
  · exact .inr (.inr h3)
  · exact absurd hknown (Nat.lt_irrefl 0)

theorem McuFrame.byteAt_two (f : McuFrame) : byteAt f.bytes 2 = f.cmd := (byteAt_of_head f.head).2.2

theorem McuFrame.length_le (f : McuFrame) : f.bytes.length ≤ 65535 := by
  rw [f.size]
  unfold v3FrameSizeFromCmd
  split_ifs <;> decide

theorem calls_handshake {f : McuFrame} (hcmd : f.cmd = v3CmdHandshake) :
    v3HandleMcuData f.bytes (UInt16.ofNat f.bytes.length) = [] := by
  have hsize : f.bytes.length = 9 := by
    rw [f.size, hcmd]
    rfl
  have hpkt : v3PktLen f.cmd (byteAt f.bytes 3) = some 9 := by
    rw [hcmd]
    rfl
  have hnone : v3Dispatch false f.cmd f.bytes 9 = none := by
    rw [hcmd]
    rfl
  rw [v3HandleMcuData_frame f.head hsize (by decide) hpkt, hnone]
  rfl

theorem calls_reply {f : McuFrame} (hcmd : f.cmd = v3CmdWriteCtrl ∨ f.cmd = v3CmdReadCtrl) :
    ∃ g : NormalFrame, g.bytes = f.bytes ∧
      v3HandleMcuData f.bytes (UInt16.ofNat f.bytes.length) = [.mcuReply g.bytes g.cmd] := by
  have hsize : f.bytes.length = 20 := by
    rw [f.size]
    rcases hcmd with h | h <;> rw [h] <;> rfl
  have hreply := v3HandleMcuData_reply ⟨f.bytes, f.cmd, hcmd, f.head, hsize⟩
  exact ⟨⟨f.bytes, f.cmd, hcmd, f.head, hsize⟩, rfl, hreply⟩

/-- The parser does not know the error frames: it skips their head and looks at the rest. -/
theorem calls_error {f : McuFrame} (hcmd : f.cmd = v3CmdWriteErr ∨ f.cmd = v3CmdReadErr) :
    v3HandleMcuData f.bytes (UInt16.ofNat f.bytes.length) =
      deframe (v3Scan false) [byteAt f.bytes 3, byteAt f.bytes 4, byteAt f.bytes 5,
      byteAt f.bytes 6] := by
  have hsize : f.bytes.length = 7 := by
    rw [f.size]
    rcases hcmd with h | h <;> rw [h] <;> rfl
  obtain ⟨b3, b4, b5, b6, hrest⟩ : ∃ b3 b4 b5 b6, f.bytes.drop 3 = [b3, b4, b5, b6] := by
    have hlen : (f.bytes.drop 3).length = 4 := by
      rw [List.length_drop, hsize]
    match f.bytes.drop 3, hlen with
    | [b3, b4, b5, b6], _ => exact ⟨b3, b4, b5, b6, rfl⟩
  have hbytes : f.bytes = v3FrameHead0 :: v3FrameHead1 :: f.cmd :: [b3, b4, b5, b6] := by
    rw [← List.take_append_drop 3 f.bytes, f.head, hrest]
    rfl
  have hunknown : v3PktLen f.cmd b3 = none := by
    rcases hcmd with h | h <;> rw [h] <;> rfl
  have hhead : f.cmd ≠ appFrameHead ∧ f.cmd ≠ v3FrameHead0 := by
    rcases hcmd with h | h <;> rw [h] <;> decide
  rw [v3HandleMcuData_eq f.length_le, hbytes, deframe_skip (v3Scan_v3_unknown hunknown),
    deframe_skip_byte (by decide) (by decide), deframe_skip_byte hhead.1 hhead.2]
  rfl

/-- **An error frame that hides a frame of the app has it executed.** -/
theorem calls_of_hides {f : McuFrame} (h : HidesAppFrame f.bytes) :
    ∃ cmd frame, IsShortCmd cmd ∧
      v3HandleMcuData f.bytes (UInt16.ofNat f.bytes.length) = [.appCmd cmd frame] := by
  obtain ⟨hcmd, hshort⟩ := h
  rw [f.byteAt_two] at hcmd
  rw [calls_error hcmd, deframe_four]
  by_cases hfirst : IsShortFrame (byteAt f.bytes 3) (byteAt f.bytes 4) (byteAt f.bytes 5)
  · rw [if_pos hfirst]
    exact ⟨_, _, hfirst.2.1, rfl⟩
  · have hsecond := hshort.resolve_left hfirst
    rw [if_neg hfirst, if_pos hsecond]
    exact ⟨_, _, hsecond.2.2.1, rfl⟩

/-- **Otherwise at most a reply is handled.** -/
theorem calls_of_not_hides {f : McuFrame} (h : ¬ HidesAppFrame f.bytes) :
    v3HandleMcuData f.bytes (UInt16.ofNat f.bytes.length) = [] ∨
      ∃ g : NormalFrame, g.bytes = f.bytes ∧
        v3HandleMcuData f.bytes (UInt16.ofNat f.bytes.length) = [.mcuReply g.bytes g.cmd] := by
  rcases f.cmd_cases with hcmd | hcmd | hcmd
  · exact .inl (calls_handshake hcmd)
  · exact .inr (calls_reply hcmd)
  · have htwo := f.byteAt_two
    have hshort := fun hs => h ⟨by rwa [htwo], hs⟩
    rw [calls_error hcmd, deframe_four, if_neg fun hs => hshort (.inl hs),
      if_neg fun hs => hshort (.inr hs)]
    exact .inl rfl

end BleHidUart.V3.McuData
