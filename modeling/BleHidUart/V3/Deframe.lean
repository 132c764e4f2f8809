import BleHidUart.Lib.Framing
import BleHidUart.V2.Bridge
import BleHidUart.V3.Parser

/-!
# The parser as a deframer

`v3Scan` is what the parser does at the head of the rest of the buffer, and `v3ParseBuffer_eq` says
that the parser deframes with it. The general rules then give:

* `v3HandleAppData_concat`: a concatenation of well-formed frames of the app is dispatched frame by
  frame.
* `split_writes_iff`: writes that cut such a concatenation are dispatched as the whole exactly when
  no frame is cut.
-/

namespace BleHidUart.V3.Deframe

open BleHidUart.Board BleHidUart.Lib.Framing BleHidUart.Lib.Word BleHidUart.Ota.Handlers
open BleHidUart.V2.Bridge BleHidUart.V3.Bridge BleHidUart.V3.Handlers BleHidUart.V3.Parser

/-- What the parser does at the head of the rest `xs` of its buffer. -/
def v3Scan (fromApp : Bool) (xs : List UInt8) : Scan HandlerCall :=
  if byteAt xs 0 ≠ appFrameHead ∧ byteAt xs 0 ≠ v3FrameHead0 then .skip
  else if byteAt xs 0 = appFrameHead then
    if xs.length ≤ 2 then .stop
    else
      match appPktLen (byteAt xs 1) with
      | none => .skip
      | some n =>
        if xs.length < n then .stop
        else .packet n
          (if byteAt xs (n - 1) = appFrameTrail then some (.appCmd (byteAt xs 1) (xs.take n))
            else none)
  else if byteAt xs 1 ≠ v3FrameHead1 ∨ xs.length ≤ 3 then .stop
  else
    match v3PktLen (byteAt xs 2) (byteAt xs 3) with
    | none => .skip
    | some n =>
      if xs.length < n then .stop else .packet n (v3Dispatch fromApp (byteAt xs 2) (xs.take n) n)

/-! ### The loop -/

theorem byteAt_drop (data : List UInt8) (offset i : ℕ) :
    byteAt (data.drop offset) i = byteAt data (offset + i) := by
  simp only [byteAt, List.getD_eq_getElem?_getD, List.getElem?_drop]

theorem appPktLen_ge {cmd : UInt8} {n : ℕ} (h : appPktLen cmd = some n) : 3 ≤ n := by
  unfold appPktLen at h
  split_ifs at h <;> · obtain rfl := Option.some.inj h; decide

theorem appPktLen_pos {cmd : UInt8} {n : ℕ} (h : appPktLen cmd = some n) : 0 < n :=
  lt_of_lt_of_le (by decide) (appPktLen_ge h)

theorem v3ParseLoop_eq {data : List UInt8} (fromApp : Bool) :
    ∀ fuel offset : ℕ, v3ParseLoop data data.length fromApp fuel offset =
      deframeLoop (v3Scan fromApp) fuel (data.drop offset) := by
  intro fuel
  induction fuel with
  | zero => exact fun _ => rfl
  | succ fuel ih =>
    intro offset
    by_cases hoff : data.length ≤ offset
    · rw [List.drop_of_length_le hoff, deframeLoop_nil, v3ParseLoop, if_pos hoff]
    · have hlen : (data.drop offset).length = data.length - offset := List.length_drop
      obtain ⟨x, xs, hx⟩ : ∃ x xs, data.drop offset = x :: xs :=
        List.exists_cons_of_ne_nil fun hnil => by rw [hnil, List.length_nil] at hlen; omega
      have hbyte : ∀ i, byteAt data (offset + i) = byteAt (x :: xs) i := fun i => by
        rw [← hx, byteAt_drop]
      have hzero : byteAt data offset = byteAt (x :: xs) 0 := hbyte 0
      rw [hx] at hlen ⊢
      have hle : ∀ k, data.length ≤ offset + k ↔ (x :: xs).length ≤ k := fun k => by omega
      have hlt : ∀ k, data.length < offset + k ↔ (x :: xs).length < k := fun k => by omega
      have hdrop : ∀ n, data.drop (offset + n) = (x :: xs).drop n := fun n => by
        rw [← List.drop_drop, hx]
      rw [v3ParseLoop, if_neg hoff]
      simp only [deframeLoop, v3Scan, hzero, hbyte, hle, hlt, hx, ih, hdrop]
      by_cases hhead : byteAt (x :: xs) 0 ≠ appFrameHead ∧ byteAt (x :: xs) 0 ≠ v3FrameHead0
      · rw [if_pos hhead, if_pos hhead]
        rfl
      rw [if_neg hhead, if_neg hhead]
      by_cases happ : byteAt (x :: xs) 0 = appFrameHead
      · rw [if_pos happ, if_pos happ]
        by_cases htwo : (x :: xs).length ≤ 2
        · rw [if_pos htwo, if_pos htwo]
        rw [if_neg htwo, if_neg htwo]
        cases hpkt : appPktLen (byteAt (x :: xs) 1) with
        | none => rfl
        | some n =>
          have hn := appPktLen_pos hpkt
          dsimp only
          by_cases hshort : (x :: xs).length < n
          · rw [if_pos hshort, if_pos hshort]
          · rw [if_neg hshort, if_neg hshort, Nat.add_sub_assoc hn, hbyte]
            split_ifs <;> rfl
      · rw [if_neg happ, if_neg happ]
        by_cases hstop : byteAt (x :: xs) 1 ≠ v3FrameHead1 ∨ (x :: xs).length ≤ 3
        · rw [if_pos hstop, if_pos hstop]
        rw [if_neg hstop, if_neg hstop]
        cases hpkt : v3PktLen (byteAt (x :: xs) 2) (byteAt (x :: xs) 3) with
        | none => rfl
        | some n =>
          dsimp only
          by_cases hshort : (x :: xs).length < n
          · rw [if_pos hshort, if_pos hshort]
          · rw [if_neg hshort, if_neg hshort]

theorem v3ParseBuffer_eq {data : List UInt8} (h : data.length ≤ 65535) (fromApp : Bool) :
    v3ParseBuffer data (UInt16.ofNat data.length) fromApp = deframe (v3Scan fromApp) data := by
  have hlen : (UInt16.ofNat data.length).toNat = data.length :=
    UInt16.toNat_ofNat_of_lt' (by simp only [UInt16.size]; omega)
  unfold v3ParseBuffer deframe
  rw [hlen, v3ParseLoop_eq, List.drop_zero]

theorem v3HandleAppData_eq {data : List UInt8} (h : data.length ≤ 65535) :
    v3HandleAppData data (UInt16.ofNat data.length) = deframe (v3Scan true) data := by
  rw [← v3ParseBuffer_eq h]
  unfold v3HandleAppData
  split_ifs with hzero
  · rw [hzero]
    rfl
  · rfl

theorem v3HandleMcuData_eq {data : List UInt8} (h : data.length ≤ 65535) :
    v3HandleMcuData data (UInt16.ofNat data.length) = deframe (v3Scan false) data := by
  rw [← v3ParseBuffer_eq h]
  unfold v3HandleMcuData
  split_ifs with hzero
  · rw [hzero]
    rfl
  · rfl

theorem forall_v3ParseLoop {data : List UInt8} {len : ℕ} {fromApp : Bool} {Q : HandlerCall → Prop}
    (happ : ∀ cmd frame, Q (.appCmd cmd frame))
    (hv3 : ∀ offset n k, offset + n ≤ len →
      byteAt data offset = v3FrameHead0 ∧ byteAt data (offset + 1) = v3FrameHead1 →
      v3PktLen (byteAt data (offset + 2)) (byteAt data (offset + 3)) = some n →
      v3Dispatch fromApp (byteAt data (offset + 2)) ((data.drop offset).take n) n = some k → Q k) :
    ∀ fuel offset, ∀ k ∈ v3ParseLoop data len fromApp fuel offset, Q k := by
  intro fuel
  induction fuel with
  | zero => exact fun _ k hk => absurd hk List.not_mem_nil
  | succ fuel ih =>
    intro offset k hk
    rw [v3ParseLoop] at hk
    split_ifs at hk with hend hskip happhead htwo hstop
    · cases hk
    · exact ih _ k hk
    · cases hk
    · dsimp only at hk
      cases hpkt : appPktLen (byteAt data (offset + 1)) with
      | none =>
        rw [hpkt] at hk
        exact ih _ k hk
      | some n =>
        rw [hpkt] at hk
        dsimp only at hk
        split_ifs at hk with hshort htrail
        · cases hk
        · rcases List.mem_append.mp hk with h | h
          · rw [List.mem_singleton.mp h]
            exact happ _ _
          · exact ih _ k h
        · exact ih _ k hk
    · cases hk
    · have hhead : byteAt data offset = v3FrameHead0 ∧ byteAt data (offset + 1) = v3FrameHead1 := by
        refine ⟨?_, by_contra fun hne => hstop (.inl hne)⟩
        by_contra hne
        exact hskip ⟨happhead, hne⟩
      dsimp only at hk
      cases hpkt : v3PktLen (byteAt data (offset + 2)) (byteAt data (offset + 3)) with
      | none =>
        rw [hpkt] at hk
        exact ih _ k hk
      | some n =>
        rw [hpkt] at hk
        dsimp only at hk
        split_ifs at hk with hshort
        · cases hk
        · rcases List.mem_append.mp hk with h | h
          · exact hv3 offset n k (by omega) hhead hpkt (Option.mem_toList.mp h)
          · exact ih _ k h

/-! ### Packets -/

theorem v3PktLen_ge {cmd len : UInt8} {n : ℕ} (h : v3PktLen cmd len = some n) : 5 ≤ n := by
  unfold v3PktLen at h
  split_ifs at h with h1 h2 h3 h4 h5 h6 h7 h8
  · rw [← Option.some.inj h]
    decide
  · rw [← Option.some.inj h]
    decide
  · rw [← Option.some.inj h, not_not.mp h4]
    decide
  · have hmin : otaFrameDataMinSize ≤ len.toUInt16 := UInt16.not_lt.mp fun hlt => h6 (.inl hlt)
    have hnat := UInt16.le_iff_toNat_le.mp hmin
    rw [UInt8.toNat_toUInt16, show otaFrameDataMinSize.toNat = 8 from rfl] at hnat
    rw [← Option.some.inj h]
    omega
  · rw [← Option.some.inj h, not_not.mp h8]
    decide

theorem frame_of_dispatch {fromApp : Bool} {cmd : UInt8} {frame : List UInt8} {n : ℕ}
    {k : HandlerCall} (h : v3Dispatch fromApp cmd frame n = some k) : k.frame = frame := by
  unfold v3Dispatch at h
  split_ifs at h <;> · rw [← Option.some.inj h]; rfl

theorem v3Dispatch_mcu {cmd : UInt8} {frame : List UInt8} {n : ℕ} {k : HandlerCall}
    (h : v3Dispatch false cmd frame n = some k) :
    (cmd = v3CmdWriteCtrl ∨ cmd = v3CmdReadCtrl) ∧ k = .mcuReply frame cmd := by
  by_cases hcmd : cmd = v3CmdWriteCtrl ∨ cmd = v3CmdReadCtrl
  · have hhand : cmd ≠ v3CmdHandshake := by
      rcases hcmd with hk | hk <;> rw [hk] <;> decide
    have hreply : v3Dispatch false cmd frame n = some (.mcuReply frame cmd) := by
      unfold v3Dispatch
      rw [if_neg hhand, if_pos hcmd]
      rfl
    rw [hreply] at h
    exact ⟨hcmd, (Option.some.inj h).symm⟩
  · have hnone : v3Dispatch false cmd frame n = none := by
      unfold v3Dispatch
      rw [if_neg hcmd]
      simp
    rw [hnone] at h
    cases h

theorem v3PktLen_normal {cmd len : UInt8} (h : cmd = v3CmdWriteCtrl ∨ cmd = v3CmdReadCtrl) :
    v3PktLen cmd len = some v3FrameSizeNormal := by
  rcases h with h | h <;> rw [h] <;> rfl

/-- What a branch of the scan with its own size table has to show. -/
theorem sound_of_size {xs : List UInt8} {size : Option ℕ} {call : ℕ → Option HandlerCall} {n : ℕ}
    {out : Option HandlerCall} (hpos : ∀ m, size = some m → 0 < m)
    (hcall : ∀ m k, call m = some k → k.frame = xs.take m)
    (h : (match size with
      | none => Scan.skip
      | some m => if xs.length < m then .stop else .packet m (call m)) = .packet n out) :
    0 < n ∧ n ≤ xs.length ∧ ∀ k, out = some k → k.frame = xs.take n := by
  cases size with
  | none => cases h
  | some m =>
    dsimp only at h
    by_cases hshort : xs.length < m
    · rw [if_pos hshort] at h
      cases h
    rw [if_neg hshort] at h
    injection h with hn hout
    subst hn
    exact ⟨hpos m rfl, by omega, fun k hk => hcall m k (hout.trans hk)⟩

theorem sound_v3Scan (fromApp : Bool) : Sound (v3Scan fromApp) HandlerCall.frame := by
  intro xs n out h
  unfold v3Scan at h
  split_ifs at h with h1 h2 h3 h4
  · refine sound_of_size (fun m hm => appPktLen_pos hm) (fun m k hk => ?_) h
    split_ifs at hk
    rw [← Option.some.inj hk]
    rfl
  · exact sound_of_size (fun m hm => lt_of_lt_of_le (by decide) (v3PktLen_ge hm))
      (fun m k hk => frame_of_dispatch hk) h

/-! ### Well-formed frames -/

theorem byteAt_of_head {frame : List UInt8} {cmd : UInt8}
    (h : frame.take 3 = [v3FrameHead0, v3FrameHead1, cmd]) :
    byteAt frame 0 = v3FrameHead0 ∧ byteAt frame 1 = v3FrameHead1 ∧ byteAt frame 2 = cmd := by
  have hthree : ∀ i, i < 3 → byteAt frame i = byteAt [v3FrameHead0, v3FrameHead1, cmd] i := by
    intro i hi
    rw [← h, byteAt_take hi]
  exact ⟨hthree 0 (by omega), hthree 1 (by omega), hthree 2 (by omega)⟩

/-- A handshake of the app: 9 bytes. -/
structure HandshakeFrame where
  bytes : List UInt8
  head : bytes.take 3 = [v3FrameHead0, v3FrameHead1, v3CmdHandshake]
  size : bytes.length = 9

/-- A read or write frame, also the reply of the controller to one: 20 bytes. -/
structure NormalFrame where
  bytes : List UInt8
  cmd : UInt8
  kind : cmd = v3CmdWriteCtrl ∨ cmd = v3CmdReadCtrl
  head : bytes.take 3 = [v3FrameHead0, v3FrameHead1, cmd]
  size : bytes.length = 20

theorem NormalFrame.byteAt_head (f : NormalFrame) : byteAt f.bytes 0 = v3FrameHead0 ∧
    byteAt f.bytes 1 = v3FrameHead1 ∧ byteAt f.bytes 2 = f.cmd := byteAt_of_head f.head

theorem NormalFrame.take_size (f : NormalFrame) : f.bytes.take v3FrameSizeNormal = f.bytes :=
  List.take_of_length_le (le_of_eq f.size)

/-- The frames of the app. -/
inductive WireFrame
  | appHandshake (b0 b1 b2 b3 : UInt8)
  | app (a : AppCmd)
  | handshake (f : HandshakeFrame)
  | readWrite (f : NormalFrame)
  | ota (f : AppFrame)

/-- The bytes of a frame. -/
def WireFrame.bytes : WireFrame → List UInt8
  | .appHandshake b0 b1 b2 b3 => [0x55, 0x01, b0, b1, b2, b3, 0xAA]
  | .app a => [0x55, a.code, 0xAA]
  | .handshake f => f.bytes
  | .readWrite f => f.bytes
  | .ota (.start f) => f.bytes
  | .ota (.data f) => f.bytes
  | .ota (.packageRetry f) => f.bytes
  | .ota (.eraseRetry f) => f.bytes

/-- The handler of a frame, with its bytes. -/
def WireFrame.call : WireFrame → HandlerCall
  | .appHandshake b0 b1 b2 b3 => .appCmd 0x01 [0x55, 0x01, b0, b1, b2, b3, 0xAA]
  | .app a => .appCmd a.code [0x55, a.code, 0xAA]
  | .handshake f => .handshake f.bytes
  | .readWrite f => .readWrite f.bytes f.cmd
  | .ota (.start f) => .otaStart f.bytes
  | .ota (.data f) => .otaData f.bytes (UInt16.ofNat f.bytes.length)
  | .ota (.packageRetry f) => .packageRetry f.bytes
  | .ota (.eraseRetry f) => .eraseRetry f.bytes

theorem frame_at_head {frame : List UInt8} {n : ℕ} (hsize : frame.length = n) (rest : List UInt8) :
    (frame ++ rest).take n = frame ∧ n ≤ (frame ++ rest).length ∧
      ∀ i, i < n → byteAt (frame ++ rest) i = byteAt frame i := by
  subst hsize
  refine ⟨List.take_left, ?_, fun i hi => List.getD_append _ _ _ _ hi⟩
  rw [List.length_append]
  exact Nat.le_add_right _ _

theorem scan_v3 (fromApp : Bool) {cmd : UInt8} {frame : List UInt8} {n : ℕ}
    (hhead : frame.take 3 = [v3FrameHead0, v3FrameHead1, cmd]) (hsize : frame.length = n)
    (hfour : 4 ≤ n) (hpkt : v3PktLen cmd (byteAt frame 3) = some n) (rest : List UInt8) :
    v3Scan fromApp (frame ++ rest) = .packet n (v3Dispatch fromApp cmd frame n) := by
  obtain ⟨htake, hlen, hbyte⟩ := frame_at_head hsize rest
  obtain ⟨h0, h1, h2⟩ := byteAt_of_head hhead
  unfold v3Scan
  rw [hbyte 0 (by omega), hbyte 1 (by omega), hbyte 2 (by omega), hbyte 3 (by omega), h0, h1, h2,
    if_neg (fun h => h.2 rfl), if_neg (by decide),
    if_neg (not_or.mpr ⟨not_not.mpr rfl, by omega⟩), hpkt]
  dsimp only
  rw [if_neg (Nat.not_lt.mpr hlen), htake]

theorem scan_app {fromApp : Bool} {frame : List UInt8} {n : ℕ}
    (hhead : byteAt frame 0 = appFrameHead) (hsize : frame.length = n) (htwo : 2 < n)
    (hpkt : appPktLen (byteAt frame 1) = some n) (htrail : byteAt frame (n - 1) = appFrameTrail)
    (rest : List UInt8) :
    v3Scan fromApp (frame ++ rest) = .packet n (some (.appCmd (byteAt frame 1) frame)) := by
  obtain ⟨htake, hlen, hbyte⟩ := frame_at_head hsize rest
  unfold v3Scan
  rw [hbyte 0 (by omega), hbyte 1 (by omega), if_neg (fun h => h.1 hhead), if_pos hhead,
    if_neg (by omega), hpkt]
  dsimp only
  rw [if_neg (Nat.not_lt.mpr hlen), hbyte (n - 1) (by omega), if_pos htrail, htake]

theorem v3PktLen_data {n : ℕ} (h8 : 8 ≤ n) (h208 : n ≤ 208) :
    v3PktLen otaCmdData (UInt8.ofNat n) = some n := by
  have hn : (UInt8.ofNat n).toNat = n := UInt8.toNat_ofNat_of_lt' (by simp only [UInt8.size]; omega)
  have hin : ¬ ((UInt8.ofNat n).toUInt16 < otaFrameDataMinSize ∨
      otaFrameDataMaxSize < (UInt8.ofNat n).toUInt16) := by
    rw [UInt16.lt_iff_toNat_lt, UInt16.lt_iff_toNat_lt, UInt8.toNat_toUInt16, hn]
    exact not_or.mpr ⟨Nat.not_lt.mpr h8, Nat.not_lt.mpr h208⟩
  have hpkt : v3PktLen otaCmdData (UInt8.ofNat n) =
      if (UInt8.ofNat n).toUInt16 < otaFrameDataMinSize ∨
          otaFrameDataMaxSize < (UInt8.ofNat n).toUInt16 then none
      else some (UInt8.ofNat n).toNat := rfl
  rw [hpkt, if_neg hin, hn]

/-- An OTA frame is one packet if the `switch` takes the length in its byte 3. -/
theorem scan_ota {cmd : UInt8} {lo hi : ℕ} (f : OtaFrame cmd lo hi) (hlo : 5 ≤ lo)
    (hpkt : v3PktLen cmd (UInt8.ofNat f.bytes.length) = some f.bytes.length) (rest : List UInt8) :
    v3Scan true (f.bytes ++ rest) =
      .packet f.bytes.length (v3Dispatch true cmd f.bytes f.bytes.length) := by
  have hsize := f.size
  have hthree : f.bytes.take 3 = [v3FrameHead0, v3FrameHead1, cmd] := by
    have htake := congrArg (List.take 3) f.head
    rwa [List.take_take] at htake
  have hbyte : byteAt f.bytes 3 = UInt8.ofNat f.bytes.length := by
    have hfour : byteAt (f.bytes.take 4) 3 = UInt8.ofNat f.bytes.length := by
      rw [f.head]
      rfl
    rw [← hfour, byteAt_take (by omega)]
  exact scan_v3 true hthree rfl (by omega) (by rw [hbyte, hpkt]) rest

theorem recognises_of_scan {frame : List UInt8} {k : HandlerCall}
    (h : ∀ rest, v3Scan true (frame ++ rest) = .packet frame.length (some k)) :
    Recognises (v3Scan true) frame k := by
  refine ⟨fun hnil => ?_, h⟩
  have hpos := (sound_v3Scan true _ _ _ (h [])).1
  rw [hnil] at hpos
  exact absurd hpos (Nat.lt_irrefl 0)

/-- **The parser recognises every well-formed frame**, whatever its payload and whatever follows. -/
theorem recognises_wireFrame (f : WireFrame) : Recognises (v3Scan true) f.bytes f.call := by
  apply recognises_of_scan
  rcases f with ⟨b0, b1, b2, b3⟩ | a | f | f | (f | f | f | f)
  · exact scan_app (n := 7) rfl rfl (by decide) rfl rfl
  · refine scan_app (n := 3) rfl rfl (by decide) ?_ rfl
    cases a <;> rfl
  · intro rest
    have hpkt : v3PktLen v3CmdHandshake (byteAt f.bytes 3) = some 9 := rfl
    have h := scan_v3 true f.head f.size (by omega) hpkt rest
    simp only [WireFrame.bytes, f.size]
    exact h
  · intro rest
    have hpkt : v3PktLen f.cmd (byteAt f.bytes 3) = some 20 := v3PktLen_normal f.kind
    have hcall : v3Dispatch true f.cmd f.bytes 20 = some (.readWrite f.bytes f.cmd) := by
      rcases f.kind with hk | hk <;> rw [hk] <;> rfl
    have h := scan_v3 true f.head f.size (by omega) hpkt rest
    rw [hcall] at h
    simp only [WireFrame.bytes, f.size]
    exact h
  · have hsize : f.bytes.length = 12 := Nat.le_antisymm f.size.2 f.size.1
    exact scan_ota f (by omega) (by rw [hsize]; rfl)
  · exact scan_ota f (by omega) (v3PktLen_data f.size.1 f.size.2)
  · have hsize : f.bytes.length = 5 := Nat.le_antisymm f.size.2 f.size.1
    exact scan_ota f (by omega) (by rw [hsize]; rfl)
  · have hsize : f.bytes.length = 5 := Nat.le_antisymm f.size.2 f.size.1
    exact scan_ota f (by omega) (by rw [hsize]; rfl)

/-! ### Whole buffers -/

/-- **Deframing undoes concatenation**: every frame goes to its own handler with its own bytes, in
order, and nothing else is dispatched. -/
theorem v3HandleAppData_concat (fs : List WireFrame)
    (hlen : (fs.flatMap WireFrame.bytes).length ≤ 65535) :
    v3HandleAppData (fs.flatMap WireFrame.bytes)
      (UInt16.ofNat (fs.flatMap WireFrame.bytes).length) = fs.map WireFrame.call := by
  rw [v3HandleAppData_eq hlen]
  exact deframe_flatMap (sound_v3Scan true) recognises_wireFrame fs

/-- A read frame for the group `grp`, with its CRC `crc`. -/
def readFrame (grp crc : UInt8) : NormalFrame :=
  ⟨[0x53, 0x35, 0x0F, grp, 0, 0, 0, 0, 0, 0, 0, 0, 0, 0, 0, 0, 0, 0, crc, 0], 0x0F, .inr rfl, rfl,
    rfl⟩

/-- A handshake whose payload looks like heads, a read frame and an unlock command in one buffer. -/
theorem v3HandleAppData_concat_sample :
    v3HandleAppData ([WireFrame.appHandshake 0x55 0x03 0xAA 0x53, .readWrite (readFrame 2 0x13),
        .app .unlock].flatMap WireFrame.bytes) 30 =
      [.appCmd 0x01 [0x55, 0x01, 0x55, 0x03, 0xAA, 0x53, 0xAA],
        .readWrite (readFrame 2 0x13).bytes 0x0F, .appCmd 0x03 [0x55, 0x03, 0xAA]] :=
  v3HandleAppData_concat [.appHandshake 0x55 0x03 0xAA 0x53, .readWrite (readFrame 2 0x13),
    .app .unlock] (by decide)

/-- A buffer with one V3 frame leads to the call for this frame, if there is one. -/
theorem v3HandleMcuData_frame {cmd : UInt8} {frame : List UInt8} {n : ℕ}
    (hhead : frame.take 3 = [v3FrameHead0, v3FrameHead1, cmd]) (hsize : frame.length = n)
    (hle : n ≤ 65535) (hpkt : v3PktLen cmd (byteAt frame 3) = some n) :
    v3HandleMcuData frame (UInt16.ofNat frame.length) = (v3Dispatch false cmd frame n).toList := by
  have hscan := scan_v3 false hhead hsize (le_trans (by decide) (v3PktLen_ge hpkt)) hpkt []
  rw [List.append_nil] at hscan
  rw [v3HandleMcuData_eq (hsize.trans_le hle), deframe_packet (sound_v3Scan false) hscan,
    List.drop_of_length_le (le_of_eq hsize), deframe_nil, List.append_nil]

theorem v3HandleMcuData_reply (f : NormalFrame) :
    v3HandleMcuData f.bytes (UInt16.ofNat f.bytes.length) = [.mcuReply f.bytes f.cmd] := by
  have hcall : v3Dispatch false f.cmd f.bytes 20 = some (.mcuReply f.bytes f.cmd) := by
    rcases f.kind with hk | hk <;> rw [hk] <;> rfl
  rw [v3HandleMcuData_frame f.head f.size (by decide) (v3PktLen_normal f.kind)]
  exact congrArg Option.toList hcall

/-- The calls for a write with a buffer of the app. -/
def writeCalls (data : List UInt8) : List HandlerCall :=
  v3HandleAppData data (UInt16.ofNat data.length)

/-- **Writes that cut a concatenation of frames** are dispatched as the whole exactly when each of
them is a concatenation of whole frames. -/
theorem split_writes_iff (fs : List WireFrame) {pieces : List (List UInt8)}
    (hp : pieces.flatten = fs.flatMap WireFrame.bytes)
    (hlen : (fs.flatMap WireFrame.bytes).length ≤ 65535) :
    pieces.flatMap writeCalls = writeCalls (fs.flatMap WireFrame.bytes) ↔
      ∃ groups : List (List WireFrame), groups.flatten = fs ∧
        pieces = groups.map (List.flatMap WireFrame.bytes) := by
  have hpiece : ∀ p ∈ pieces, writeCalls p = deframe (v3Scan true) p := by
    intro p hmem
    refine v3HandleAppData_eq (le_trans ?_ hlen)
    rw [← hp]
    exact (List.sublist_flatten_of_mem hmem).length_le
  have hwhole : writeCalls (fs.flatMap WireFrame.bytes) = fs.map WireFrame.call :=
    v3HandleAppData_concat fs hlen
  rw [hwhole, List.flatMap_congr hpiece]
  exact deframe_pieces_iff (sound_v3Scan true) recognises_wireFrame hp

/-- Two writes with one frame each. -/
theorem split_writes_frames : [[0x55, 0x03, 0xAA], [0x55, 0x04, 0xAA]].flatMap writeCalls =
    writeCalls [0x55, 0x03, 0xAA, 0x55, 0x04, 0xAA] :=
  (split_writes_iff [.app .unlock, .app .lock] (by decide) (by decide)).mpr
    ⟨[[.app .unlock], [.app .lock]], rfl, rfl⟩

/-- **A cut frame is lost**: the first write breaks off, and the second one does not know of it. -/
theorem not_split_writes : ¬ ∀ (fs : List WireFrame) (pieces : List (List UInt8)),
    pieces.flatten = fs.flatMap WireFrame.bytes → (∀ p ∈ pieces, p ≠ []) →
    (fs.flatMap WireFrame.bytes).length ≤ 65535 →
    pieces.flatMap writeCalls = writeCalls (fs.flatMap WireFrame.bytes) := by
  intro hall
  have h := hall [.app .unlock] [[0x55, 0x03], [0xAA]] rfl (by decide) (by decide)
  exact absurd h (by decide)

end BleHidUart.V3.Deframe
