import BleHidUart.V3.Deframe

/-!
# Where the dispatched frames lie

`v3ParseLoopAt` is the loop of the parser with the `offset` of every frame it hands to a handler,
and `v3ParseLoopAt_succ` says what one round can do, on any buffer: stop, skip a byte, or take a
packet at the offset and move past it. From it the frames lie inside the buffer, one after the other
(`dispatchSound`), and each of them has the head, the command and the length of its kind
(`WellFormed`).
-/

namespace BleHidUart.V3.Located

open BleHidUart.Board BleHidUart.Lib.Word BleHidUart.Ota.Handlers BleHidUart.V3.Bridge
open BleHidUart.V3.Deframe BleHidUart.V3.Handlers BleHidUart.V3.Parser

/-! ### The loop with its offsets -/

/-- `v3ParseLoop`, with the offset of the frame of each call: the handlers get `data + offset`. -/
def v3ParseLoopAt (data : List UInt8) (len : ℕ) (fromApp : Bool) : ℕ → ℕ → List (ℕ × HandlerCall)
  | 0, _ => []
  | fuel + 1, offset =>
    if len ≤ offset then []
    else if byteAt data offset ≠ appFrameHead ∧ byteAt data offset ≠ v3FrameHead0 then
      v3ParseLoopAt data len fromApp fuel (offset + 1)
    else if byteAt data offset = appFrameHead then
      if len ≤ offset + 2 then []
      else
        let cmd := byteAt data (offset + 1)
        match appPktLen cmd with
        | none => v3ParseLoopAt data len fromApp fuel (offset + 1)
        | some pktLen =>
          if len < offset + pktLen then []
          else
            (if byteAt data (offset + pktLen - 1) = appFrameTrail then
              [(offset, .appCmd cmd ((data.drop offset).take pktLen))] else []) ++
              v3ParseLoopAt data len fromApp fuel (offset + pktLen)
    else if byteAt data (offset + 1) ≠ v3FrameHead1 ∨ len ≤ offset + 3 then []
    else
      let cmd := byteAt data (offset + 2)
      match v3PktLen cmd (byteAt data (offset + 3)) with
      | none => v3ParseLoopAt data len fromApp fuel (offset + 1)
      | some pktLen =>
        if len < offset + pktLen then []
        else
          ((v3Dispatch fromApp cmd ((data.drop offset).take pktLen) pktLen).map (offset,
            ·)).toList ++ v3ParseLoopAt data len fromApp fuel (offset + pktLen)

/-- `V3_parse_buffer`, with the offsets. -/
def v3ParseBufferAt (data : List UInt8) (len : UInt16) (fromApp : Bool) : List (ℕ × HandlerCall) :=
  v3ParseLoopAt data len.toNat fromApp len.toNat 0

/-- The calls are those of the parser. -/
theorem map_v3ParseLoopAt (data : List UInt8) (len : ℕ) (fromApp : Bool) :
    ∀ fuel offset, (v3ParseLoopAt data len fromApp fuel offset).map Prod.snd =
      v3ParseLoop data len fromApp fuel offset := by
  intro fuel
  induction fuel with
  | zero => exact fun _ => rfl
  | succ fuel ih =>
    intro offset
    rw [v3ParseLoopAt, v3ParseLoop]
    split_ifs with hend hskip happ htwo hstop
    · rfl
    · exact ih _
    · rfl
    · dsimp only
      cases appPktLen (byteAt data (offset + 1)) with
      | none => exact ih _
      | some n =>
        dsimp only
        split_ifs
        · rfl
        · rw [List.map_append, ih]
          rfl
        · exact ih _
    · rfl
    · dsimp only
      cases v3PktLen (byteAt data (offset + 2)) (byteAt data (offset + 3)) with
      | none => exact ih _
      | some n =>
        dsimp only
        split_ifs
        · rfl
        · rw [List.map_append, ih]
          cases v3Dispatch fromApp (byteAt data (offset + 2)) ((data.drop offset).take n) n <;> rfl

/-! ### Frames of their kind -/

/-- The frame of a call has the head, the command and the length of its kind, and the trailer if it
is a `55` frame. Only frames of the app reach the handlers of the app. -/
def WellFormed (fromApp : Bool) : HandlerCall → Prop
  | .appCmd cmd f => byteAt f 0 = 0x55 ∧ byteAt f 1 = cmd ∧ byteAt f (f.length - 1) = 0xAA ∧
      (cmd = 0x01 ∧ f.length = 7 ∨ cmd ∈ [0x02, 0x03, 0x04, 0x05] ∧ f.length = 3)
  | .handshake f => fromApp = true ∧ f.take 3 = [0x53, 0x35, 0x01] ∧ f.length = 9
  | .readWrite f cmd => fromApp = true ∧ cmd ∈ [0x00, 0x0F] ∧ f.take 3 = [0x53, 0x35, cmd] ∧
      f.length = 20
  | .mcuReply f cmd => fromApp = false ∧ cmd ∈ [0x00, 0x0F] ∧ f.take 3 = [0x53, 0x35, cmd] ∧
      f.length = 20
  | .otaStart f => fromApp = true ∧ f.take 4 = [0x53, 0x35, 0x06, 12] ∧ f.length = 12
  | .otaData f n => fromApp = true ∧ f.take 3 = [0x53, 0x35, 0x08] ∧ (byteAt f 3).toNat = f.length ∧
      n.toNat = f.length ∧ 8 ≤ f.length ∧ f.length ≤ 208
  | .packageRetry f => fromApp = true ∧ f.take 4 = [0x53, 0x35, 0x0B, 5] ∧ f.length = 5
  | .eraseRetry f => fromApp = true ∧ f.take 4 = [0x53, 0x35, 0x0C, 5] ∧ f.length = 5

theorem wellFormed_app {fromApp : Bool} {cmd : UInt8} {f : List UInt8} {n : ℕ}
    (hpkt : appPktLen cmd = some n) (hlen : f.length = n) (hhead : byteAt f 0 = appFrameHead)
    (hcmd : byteAt f 1 = cmd) (htrail : byteAt f (n - 1) = appFrameTrail) :
    WellFormed fromApp (.appCmd cmd f) := by
  refine ⟨hhead, hcmd, by rw [hlen]; exact htrail, ?_⟩
  unfold appPktLen at hpkt
  split_ifs at hpkt with h1 h2 h3 h4 h5 <;> obtain rfl := Option.some.inj hpkt
  · exact .inl ⟨h1, hlen⟩
  · exact .inr ⟨by simp [h2], hlen⟩
  · exact .inr ⟨by simp [h3], hlen⟩
  · exact .inr ⟨by simp [h4], hlen⟩
  · exact .inr ⟨by simp [h5], hlen⟩

theorem take_three {f : List UInt8} (hlen : 3 ≤ f.length) :
    f.take 3 = [byteAt f 0, byteAt f 1, byteAt f 2] := by
  match f, hlen with
  | _ :: _ :: _ :: _, _ => rfl

/-- The first four bytes of a frame whose fourth byte the `switch` compares with a constant. -/
theorem take_four {f : List UInt8} {cmd b : UInt8}
    (hhead : f.take 3 = [v3FrameHead0, v3FrameHead1, cmd]) (hlen : 4 ≤ f.length)
    (hb : byteAt f 3 = b) : f.take 4 = [v3FrameHead0, v3FrameHead1, cmd, b] := by
  rw [List.take_succ_eq_append_getElem (by omega), hhead, ← hb, byteAt,
    List.getD_eq_getElem _ _ (by omega)]
  rfl

theorem size_fixed {b : UInt8} {size n : ℕ}
    (h : (if b.toNat ≠ size then none else some b.toNat) = some n) : b = UInt8.ofNat size ∧
      n = size := by
  split_ifs at h with hne
  have hsize : b.toNat = size := not_not.mp hne
  exact ⟨by rw [← hsize, UInt8.ofNat_toNat], by rw [← Option.some.inj h, hsize]⟩

theorem wellFormed_v3 {fromApp : Bool} {cmd : UInt8} {f : List UInt8} {n : ℕ} {k : HandlerCall}
    (hhead : f.take 3 = [v3FrameHead0, v3FrameHead1, cmd]) (hlen : f.length = n)
    (hpkt : v3PktLen cmd (byteAt f 3) = some n) (hk : v3Dispatch fromApp cmd f n = some k) :
    WellFormed fromApp k := by
  have hfour : 4 ≤ f.length := by
    have hn := v3PktLen_ge hpkt
    omega
  unfold v3Dispatch at hk
  split_ifs at hk with hshake happ hnormal happ hstart hdata hretry herase <;>
    obtain rfl := Option.some.inj hk
  · subst hshake
    exact ⟨happ, hhead, hlen.trans (Option.some.inj hpkt).symm⟩
  · rw [v3PktLen_normal hnormal] at hpkt
    have hmem : cmd ∈ [v3CmdWriteCtrl, v3CmdReadCtrl] := by simpa using hnormal
    exact ⟨happ, hmem, hhead, hlen.trans (Option.some.inj hpkt).symm⟩
  · rw [v3PktLen_normal hnormal] at hpkt
    have hmem : cmd ∈ [v3CmdWriteCtrl, v3CmdReadCtrl] := by simpa using hnormal
    exact ⟨Bool.eq_false_of_not_eq_true happ, hmem, hhead, hlen.trans (Option.some.inj hpkt).symm⟩
  · obtain ⟨rfl, happ⟩ := hstart
    obtain ⟨hb, hn⟩ := size_fixed hpkt
    exact ⟨happ, take_four hhead hfour hb, hlen.trans hn⟩
  · obtain ⟨rfl, happ⟩ := hdata
    have hsize : (if (byteAt f 3).toUInt16 < otaFrameDataMinSize ∨
        otaFrameDataMaxSize < (byteAt f 3).toUInt16 then none else some (byteAt f 3).toNat) =
          some n := hpkt
    split_ifs at hsize with hrange
    rw [not_or, UInt16.lt_iff_toNat_lt, UInt16.lt_iff_toNat_lt, UInt8.toNat_toUInt16,
      Option.some.inj hsize] at hrange
    have hmin : 8 ≤ n := Nat.not_lt.mp hrange.1
    have hmax : n ≤ 208 := Nat.not_lt.mp hrange.2
    subst hlen
    exact ⟨happ, hhead, Option.some.inj hsize,
      UInt16.toNat_ofNat_of_lt' (by simp only [UInt16.size]; omega), hmin, hmax⟩
  · obtain ⟨rfl, happ⟩ := hretry
    obtain ⟨hb, hn⟩ := size_fixed hpkt
    exact ⟨happ, take_four hhead hfour hb, hlen.trans hn⟩
  · obtain ⟨rfl, happ⟩ := herase
    obtain ⟨hb, hn⟩ := size_fixed hpkt
    exact ⟨happ, take_four hhead hfour hb, hlen.trans hn⟩

/-! ### One round -/

variable {data : List UInt8} {len : ℕ} {fromApp : Bool}

/-- The frame of a call lies at its offset, inside the buffer, and is one of its kind. -/
structure LiesAt (data : List UInt8) (len : ℕ) (fromApp : Bool) (p : ℕ × HandlerCall) : Prop where
  inside : p.1 + p.2.frame.length ≤ len
  bytes : p.2.frame = (data.drop p.1).take p.2.frame.length
  wellFormed : WellFormed fromApp p.2

theorem liesAt_of_frame {offset n : ℕ} {k : HandlerCall} (hlen : len ≤ data.length)
    (hin : offset + n ≤ len) (hframe : k.frame = (data.drop offset).take n)
    (hk : WellFormed fromApp k) : k.frame.length = n ∧ LiesAt data len fromApp (offset, k) := by
  have hn : k.frame.length = n := by
    rw [hframe, List.length_take, List.length_drop]
    omega
  exact ⟨hn, by rw [hn]; exact hin, by rw [hn]; exact hframe, hk⟩

theorem byteAt_packet {offset n i : ℕ} (hi : i < n) :
    byteAt ((data.drop offset).take n) i = byteAt data (offset + i) := by
  rw [byteAt_take hi, byteAt_drop]

/-- **What a round can do**: stop, skip a byte, or take a packet. -/
theorem v3ParseLoopAt_succ (fromApp : Bool) (hlen : len ≤ data.length) (fuel offset : ℕ) :
    v3ParseLoopAt data len fromApp (fuel + 1) offset = [] ∨
      v3ParseLoopAt data len fromApp (fuel + 1) offset =
        v3ParseLoopAt data len fromApp fuel (offset + 1) ∨
      ∃ (n : ℕ) (out : Option HandlerCall), offset + n ≤ len ∧
        (∀ k ∈ out, k.frame.length = n ∧ LiesAt data len fromApp (offset, k)) ∧
        v3ParseLoopAt data len fromApp (fuel + 1) offset =
          (out.map (offset, ·)).toList ++ v3ParseLoopAt data len fromApp fuel (offset + n) := by
  rw [v3ParseLoopAt]
  split_ifs with hend hskip happ htwo hstop
  · exact .inl rfl
  · exact .inr (.inl rfl)
  · exact .inl rfl
  · dsimp only
    cases hpkt : appPktLen (byteAt data (offset + 1)) with
    | none => exact .inr (.inl rfl)
    | some n =>
      dsimp only
      split_ifs with hshort htrail
      · exact .inl rfl
      · refine .inr (.inr ⟨n, some (.appCmd (byteAt data (offset + 1)) ((data.drop offset).take n)),
          by omega, fun k hk => ?_, rfl⟩)
        have hn := appPktLen_ge hpkt
        have hsize : ((data.drop offset).take n).length = n := by
          rw [List.length_take, List.length_drop]
          omega
        have hlast : byteAt ((data.drop offset).take n) (n - 1) = appFrameTrail := by
          rw [byteAt_packet (by omega), ← Nat.add_sub_assoc (by omega)]
          exact htrail
        obtain rfl := Option.some.inj hk
        refine liesAt_of_frame hlen (by omega) rfl (wellFormed_app hpkt hsize ?_ ?_ hlast)
        · rw [byteAt_packet (by omega)]
          exact happ
        · exact byteAt_packet (by omega)
      · exact .inr (.inr ⟨n, none, by omega, fun k hk => (by cases hk), rfl⟩)
  · exact .inl rfl
  · dsimp only
    cases hpkt : v3PktLen (byteAt data (offset + 2)) (byteAt data (offset + 3)) with
    | none => exact .inr (.inl rfl)
    | some n =>
      dsimp only
      split_ifs with hshort
      · exact .inl rfl
      · refine .inr (.inr ⟨n, _, by omega, fun k hk => ?_, rfl⟩)
        have hn := v3PktLen_ge hpkt
        have hsize : ((data.drop offset).take n).length = n := by
          rw [List.length_take, List.length_drop]
          omega
        have hbyte : ∀ i, i < n → byteAt ((data.drop offset).take n) i = byteAt data (offset + i) :=
          fun i => byteAt_packet
        have hhead : ((data.drop offset).take n).take 3 =
            [v3FrameHead0, v3FrameHead1, byteAt data (offset + 2)] := by
          have hzero : byteAt data offset = v3FrameHead0 := by
            by_contra hne
            exact hskip ⟨happ, hne⟩
          have hone : byteAt data (offset + 1) = v3FrameHead1 :=
            not_not.mp fun hne => hstop (.inl hne)
          rw [take_three (by omega), hbyte 0 (by omega), hbyte 1 (by omega), hbyte 2 (by omega),
            Nat.add_zero, hzero, hone]
        rw [← hbyte 3 (by omega)] at hpkt
        exact liesAt_of_frame hlen (by omega) (frame_of_dispatch hk)
          (wellFormed_v3 hhead hsize hpkt hk)

/-! ### The whole buffer -/

theorem forall_behind {a b : ℕ} {L : ℕ × HandlerCall → Prop} {ps : List (ℕ × HandlerCall)}
    (hle : a ≤ b) (hps : ∀ p ∈ ps, b ≤ p.1 ∧ L p) : ∀ p ∈ ps, a ≤ p.1 ∧ L p := fun p hp =>
  ⟨hle.trans (hps p hp).1, (hps p hp).2⟩

/-- Every frame lies at or behind the offset, and one behind the other. -/
theorem v3ParseLoopAt_spec (fromApp : Bool) (hlen : len ≤ data.length) : ∀ fuel offset,
    (∀ p ∈ v3ParseLoopAt data len fromApp fuel offset, offset ≤ p.1 ∧ LiesAt data len fromApp p) ∧
      (v3ParseLoopAt data len fromApp fuel offset).Pairwise
        fun p q => p.1 + p.2.frame.length ≤ q.1 := by
  intro fuel
  induction fuel with
  | zero => exact fun _ => ⟨fun p hp => absurd hp List.not_mem_nil, List.Pairwise.nil⟩
  | succ fuel ih =>
    intro offset
    obtain hstop | hskip | ⟨n, out, hin, hout, htake⟩ :=
      v3ParseLoopAt_succ fromApp hlen fuel offset
    · rw [hstop]
      exact ⟨fun p hp => absurd hp List.not_mem_nil, List.Pairwise.nil⟩
    · rw [hskip]
      obtain ⟨hat, hpair⟩ := ih (offset + 1)
      exact ⟨forall_behind (Nat.le_succ offset) hat, hpair⟩
    · rw [htake]
      obtain ⟨hat, hpair⟩ := ih (offset + n)
      cases out with
      | none => exact ⟨forall_behind (Nat.le_add_right offset n) hat, hpair⟩
      | some k =>
        obtain ⟨hn, hlies⟩ := hout k rfl
        refine ⟨fun p hp => ?_, List.pairwise_cons.mpr ⟨fun q hq => ?_, hpair⟩⟩
        · rcases List.mem_cons.mp hp with rfl | hp
          · exact ⟨le_rfl, hlies⟩
          · exact forall_behind (Nat.le_add_right offset n) hat p hp
        · rw [hn]
          exact (hat q hq).1

/-- The byte `i` of the buffer is one of the frame. -/
def Covers (i : ℕ) (p : ℕ × HandlerCall) : Bool := p.1 ≤ i ∧ i < p.1 + p.2.frame.length

/-- What the parser dispatches: the calls, where their frames lie, that they are one behind the
other, and that no byte of the buffer is in two of them. -/
structure DispatchSound (data : List UInt8) (len : UInt16) (fromApp : Bool) : Prop where
  calls : (v3ParseBufferAt data len fromApp).map Prod.snd = v3ParseBuffer data len fromApp
  liesAt : ∀ p ∈ v3ParseBufferAt data len fromApp, LiesAt data len.toNat fromApp p
  increasing : (v3ParseBufferAt data len fromApp).Pairwise fun p q => p.1 + p.2.frame.length ≤ q.1
  once : ∀ i, ((v3ParseBufferAt data len fromApp).filter (Covers i)).length ≤ 1

/-- Ranges one behind the other have no byte in common. -/
theorem length_filter_covers {ps : List (ℕ × HandlerCall)}
    (h : ps.Pairwise fun p q => p.1 + p.2.frame.length ≤ q.1) (i : ℕ) :
    (ps.filter (Covers i)).length ≤ 1 := by
  have hpair := h.filter (Covers i)
  have hall : ∀ p ∈ ps.filter (Covers i), p.1 ≤ i ∧ i < p.1 + p.2.frame.length := fun p hp =>
    of_decide_eq_true (List.mem_filter.mp hp).2
  match hf : ps.filter (Covers i) with
  | [] | [_] => simp
  | p :: q :: _ =>
    rw [hf] at hpair hall
    have hle := List.rel_of_pairwise_cons hpair List.mem_cons_self
    have hp := hall p List.mem_cons_self
    have hq := hall q (List.mem_cons_of_mem _ List.mem_cons_self)
    omega

/-- **Dispatch is sound on every buffer**: whatever the bytes are, the frames handed to the handlers
are parts of the buffer of their kind, in order and without overlap. -/
theorem dispatchSound {data : List UInt8} {len : UInt16} (h : len.toNat ≤ data.length)
    (fromApp : Bool) : DispatchSound data len fromApp := by
  obtain ⟨hat, hpair⟩ := v3ParseLoopAt_spec fromApp h len.toNat 0
  exact ⟨map_v3ParseLoopAt data len.toNat fromApp len.toNat 0, fun p hp => (hat p hp).2, hpair,
    length_filter_covers hpair⟩

/-- An unlock command between a stray byte, a lone head and a frame with an unknown command. -/
theorem dispatchSound_stray :
    DispatchSound [0xFF, 0x55, 0x09, 0x55, 0x03, 0xAA, 0x53, 0x35, 0x77, 0] 10 true :=
  dispatchSound (by decide) true

end BleHidUart.V3.Located
