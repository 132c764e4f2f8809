import BleHidUart.Uart.Segments

/-!
# OTA replies in segments

`ctrl_replies_iff`: a stream of replies of 8 bytes of the bootloader is handled reply by reply
exactly when every TIMEOUT finds whole replies. The receiver takes several replies at once, but
drops a part of one.
-/

namespace BleHidUart.Uart.CtrlReplies

open BleHidUart.Lib.Memory BleHidUart.Lib.Run BleHidUart.Lib.Stream BleHidUart.Lib.Word
open BleHidUart.Uart.Receiver BleHidUart.Uart.Segments

/-- A reply of the bootloader. -/
def ctrlReplyBytes (cmd : UInt8) : List UInt8 := [0xEB, 0x90, 0xEB, 0x90, 0xEB, 0x90, 0x08, cmd]

/-- The calls of `Ctrl_ota_handle_reply`. -/
def ctrlReplies : RxOut → List UInt8
  | .call (.ctrlReply cmd) => [cmd]
  | _ => []

/-- The bytes of the replies that a call handles. -/
def ctrlBytes : RxCall → List UInt8
  | .ctrlReply cmd => ctrlReplyBytes cmd
  | _ => []

/-- The OTA replies as the flow. -/
abbrev ctrlFlow : Flow RxState UartEvent RxOut UInt8 := rxFlow ctrlBytes

/-- A stream of OTA replies. -/
def CtrlStream (bs : List UInt8) : Prop := ∃ cmds : List UInt8, bs = cmds.flatMap ctrlReplyBytes

/-- A TIMEOUT finds whole replies. -/
def WholeReplies (u : RxState) : UartEvent → Prop
  | .data _ => True
  | .timeout arrived => (u.usartRxCnt + u.fifo.length + arrived.length) % 8 = 0

instance : ∀ (u : RxState) (e : UartEvent), Decidable (WholeReplies u e)
  | _, .data _ => .isTrue trivial
  | _, .timeout _ => inferInstanceAs (Decidable (_ = _))

theorem otaReplyLoop_length : ∀ (fuel : ℕ) (v : RxState),
    ((otaReplyLoop fuel v).2.flatMap ctrlBytes).length + (otaReplyLoop fuel v).1.usartRxCnt =
        v.usartRxCnt ∧
      ((otaReplyLoop fuel v).2.flatMap ctrlBytes).length % 8 = 0 := by
  intro fuel
  induction fuel with
  | zero => exact fun v => ⟨Nat.zero_add _, rfl⟩
  | succ fuel ih =>
    intro v
    rw [otaReplyLoop]
    split_ifs with hr
    · have h8 : 8 ≤ v.usartRxCnt := hr.1
      obtain ⟨hlen, hmod⟩ := ih { v with
        rxSendata := store v.rxSendata 0
          (slice v.rxSendata ctrlRspFrameLen (v.usartRxCnt - ctrlRspFrameLen))
        usartRxCnt := v.usartRxCnt - ctrlRspFrameLen }
      have hone : (ctrlBytes (.ctrlReply (v.rxSendata 7))).length = 8 := rfl
      have hrsp : ctrlRspFrameLen = 8 := rfl
      dsimp only at hlen hmod ⊢
      rw [List.flatMap_cons, List.length_append, hone]
      omega
    · exact ⟨Nat.zero_add _, rfl⟩

theorem hasCtrlReply_iff {v : RxState} : HasCtrlReply v ↔ 8 ≤ v.usartRxCnt ∧
    slice v.rxSendata 0 8 = ctrlReplyBytes (v.rxSendata 7) := by
  have hslice : slice v.rxSendata 0 8 = [v.rxSendata 0, v.rxSendata 1, v.rxSendata 2, v.rxSendata 3,
      v.rxSendata 4, v.rxSendata 5, v.rxSendata 6, v.rxSendata 7] := rfl
  rw [hslice]
  simp only [HasCtrlReply, ctrlReplyBytes, List.cons_eq_cons, and_true]
  exact Iff.rfl

theorem otaReplyLoop_whole : ∀ (cmds : List UInt8) (fuel : ℕ) (v : RxState),
    buffered v = cmds.flatMap ctrlReplyBytes → v.usartRxCnt ≤ fuel →
    (otaReplyLoop fuel v).2 = cmds.map .ctrlReply := by
  intro cmds
  induction cmds with
  | nil =>
    intro fuel v hbuf _
    have hzero := congrArg List.length hbuf
    rw [length_buffered, List.flatMap_nil, List.length_nil] at hzero
    rw [otaReplyLoop_of_not (not_hasCtrlReply_of_lt (by omega))]
    rfl
  | cons cmd cmds ih =>
    intro fuel v hbuf hfuel
    have hone : (ctrlReplyBytes cmd).length = 8 := rfl
    have hlen := congrArg List.length hbuf
    rw [length_buffered, List.flatMap_cons, List.length_append, hone] at hlen
    obtain ⟨fuel, rfl⟩ : ∃ k, fuel = k + 1 := ⟨fuel - 1, by omega⟩
    obtain ⟨n, hn⟩ := Nat.exists_eq_add_of_le (show 8 ≤ v.usartRxCnt by omega)
    have hsplit : buffered v = slice v.rxSendata 0 8 ++ slice v.rxSendata 8 n := by
      unfold buffered
      rw [hn, slice_add]
    rw [hsplit, List.flatMap_cons] at hbuf
    obtain ⟨hhead, hrest⟩ := List.append_inj hbuf (length_slice _ _ _)
    have hseven : v.rxSendata 7 = cmd := by
      have hlast := congrArg (fun bs => byteAt bs 7) hhead
      exact hlast
    have hr : HasCtrlReply v := hasCtrlReply_iff.mpr ⟨by omega, by rw [hseven]; exact hhead⟩
    have hcnt : v.usartRxCnt - ctrlRspFrameLen = n := by
      show v.usartRxCnt - 8 = n
      omega
    rw [otaReplyLoop, if_pos hr]
    dsimp only
    rw [hcnt, hseven, List.map_cons]
    refine congrArg _ (ih fuel _ ?_ (by dsimp only; omega))
    have hslice : (slice v.rxSendata ctrlRspFrameLen n).length = n := length_slice _ _ _
    have hstore := slice_store v.rxSendata 0 (slice v.rxSendata ctrlRspFrameLen n)
    rw [hslice] at hstore
    exact hstore.trans hrest

theorem ctrl_shrinks (v : RxState) : (tailLeft ctrlBytes v).length ≤ v.usartRxCnt := by
  unfold tailLeft
  rw [List.length_append, length_buffered]
  by_cases hr : HasCtrlReply v
  · have hlen := (otaReplyLoop_length v.usartRxCnt v).1
    rw [timeoutTail_ctrl hr]
    dsimp only
    omega
  · rw [timeoutTail_of_not hr]
    split_ifs
    · exact Nat.zero_le _
    · exact Nat.le_of_eq (Nat.zero_add _)
    · exact Nat.zero_le _

theorem head_ctrlStream {v : RxState} {future : List UInt8}
    (hgood : CtrlStream (buffered v ++ future)) (hpos : 0 < v.usartRxCnt) :
    v.rxSendata 0 = 0xEB := by
  obtain ⟨cmds, hcmds⟩ := hgood
  have hleft : byteAt (buffered v ++ future) 0 = v.rxSendata 0 := by
    rw [← byteAt_buffered hpos]
    exact List.getD_append _ _ _ _ (by rwa [length_buffered])
  cases cmds with
  | nil => exact absurd (List.append_eq_nil_iff.mp hcmds).1 (buffered_ne_nil (by omega))
  | cons cmd cmds =>
    rw [← hleft, hcmds]
    rfl

theorem not_looksV3_of_ctrlStream {v : RxState} {future : List UInt8}
    (hgood : CtrlStream (buffered v ++ future)) : ¬ LooksV3 v := fun hv => by
  have hhead := hv.2.1.symm.trans (head_ctrlStream hgood hv.1)
  exact absurd hhead (by decide)

theorem ctrl_passes {v : RxState} {future : List UInt8}
    (hgood : CtrlStream (buffered v ++ future)) (hwhole : v.usartRxCnt % 8 = 0) :
    tailLeft ctrlBytes v = buffered v ∧ CtrlStream (buffered (timeoutTail v).1 ++ future) := by
  obtain ⟨cmds, hcmds⟩ := id hgood
  have hbytes : ∀ cmd, (ctrlReplyBytes cmd).length = 8 := fun _ => rfl
  obtain ⟨hbuf, hfuture⟩ := flatMap_split (by omega) hbytes hcmds
    (show (buffered v).length = v.usartRxCnt / 8 * 8 by rw [length_buffered]; omega)
  have hheld : buffered (timeoutTail v).1 = [] := by
    refine buffered_eq_nil ?_
    rcases (timeoutTail_cases v).2 with hzero | ⟨hv, -, -⟩
    · exact hzero
    · exact absurd hv (not_looksV3_of_ctrlStream hgood)
  refine ⟨?_, ?_⟩
  · unfold tailLeft
    rw [hheld, List.append_nil]
    have hcalls := otaReplyLoop_whole _ v.usartRxCnt v hbuf le_rfl
    by_cases hr : HasCtrlReply v
    · rw [timeoutTail_ctrl hr, hcalls, List.flatMap_map, hbuf]
      rfl
    · rw [otaReplyLoop_of_not hr] at hcalls
      rw [timeoutTail_of_not hr, if_neg (not_looksV3_of_ctrlStream hgood), hbuf,
        List.map_eq_nil_iff.mp hcalls.symm]
      rfl
  · rw [hheld]
    exact ⟨_, hfuture⟩

/-- A part of a reply is dropped. -/
theorem ctrl_loses {v : RxState} {future : List UInt8}
    (hgood : CtrlStream (buffered v ++ future)) (hpart : v.usartRxCnt % 8 ≠ 0) :
    (tailLeft ctrlBytes v).length < v.usartRxCnt := by
  unfold tailLeft
  rw [List.length_append, length_buffered]
  by_cases hr : HasCtrlReply v
  · obtain ⟨hlen, hmod⟩ := otaReplyLoop_length v.usartRxCnt v
    rw [timeoutTail_ctrl hr]
    dsimp only
    omega
  · rw [timeoutTail_of_not hr, if_neg (not_looksV3_of_ctrlStream hgood)]
    show 0 < v.usartRxCnt
    omega

/-- **OTA replies flow through the receiver** without a loss where whole replies are collected. -/
theorem ctrlChannel : Channel rxStep ctrlFlow Within WholeReplies CtrlStream := by
  refine rxChannel (fun _ _ => trivial) (fun v _ => ctrl_shrinks v) ?_ ?_
  · intro u arrived future hgood hC
    refine ctrl_passes hgood ?_
    rw [filled_usartRxCnt]
    exact hC
  · intro u arrived future hgood hC
    refine ctrl_loses hgood ?_
    rw [filled_usartRxCnt]
    exact hC

/-- **OTA replies in segments**: the replies of the stream are all handled, in order and with their
commands, exactly when every TIMEOUT finds whole replies. -/
theorem ctrl_replies_iff {u : RxState} (hcnt : u.usartRxCnt = 0) (hfifo : u.fifo = [])
    (cmds : List UInt8) (es : List UartEvent) (last : List UInt8)
    (harr : (es ++ [UartEvent.timeout last]).flatMap UartEvent.arrived =
      cmds.flatMap ctrlReplyBytes)
    (hG : EachStep rxStep Within u (es ++ [.timeout last])) :
    (outs rxStep u (es ++ [.timeout last])).flatMap ctrlReplies = cmds ↔
      EachStep rxStep WholeReplies u (es ++ [.timeout last]) := by
  have h0 : ctrlFlow.held u = [] := held_eq_nil hcnt hfifo
  have hgood : CtrlStream (cmds.flatMap ctrlReplyBytes) := ⟨cmds, rfl⟩
  have hbytes : ∀ cmd, (ctrlReplyBytes cmd).length = 8 := fun _ => rfl
  have hout : ∀ cmd, ctrlReplyBytes (id cmd) = ctrlReplyBytes cmd := fun _ => rfl
  have hitems : ∀ o, ctrlFlow.items o = (ctrlReplies o).flatMap ctrlReplyBytes := by
    intro o
    cases o with
    | store i => rfl
    | call c => cases c <;> rfl
  have hgot : ∀ o, ∀ k ∈ ctrlReplies o, (ctrlReplyBytes k).length = 8 ∧
      ∀ cmd, ctrlReplyBytes k = ctrlReplyBytes cmd → k = id cmd :=
    fun o k _ => ⟨rfl, fun cmd h => congrArg (fun bs => byteAt bs 7) h⟩
  have hlast : EachStep rxStep WholeReplies u (es ++ [.timeout last]) →
      ctrlFlow.held (final rxStep u (es ++ [.timeout last])) = [] := by
    intro hC
    have hfinal := ctrlChannel.good_final hG (by rw [h0, List.nil_append]; rwa [← harr] at hgood) hC
    obtain ⟨v, hv⟩ := held_final_timeout ctrlBytes hG
    rw [hv] at hfinal ⊢
    rcases (timeoutTail_cases v).2 with hzero | ⟨hlooks, -, hkept⟩
    · exact buffered_eq_nil hzero
    · rw [hkept, ← List.append_nil (buffered v)] at hfinal
      exact absurd hlooks (not_looksV3_of_ctrlStream hfinal)
  have hiff := ctrlChannel.frames_iff (by omega) hbytes hitems hout hgot hG h0 harr hgood hlast
  rwa [List.map_id] at hiff

/-- Two replies before one pause. -/
theorem ctrl_replies_two : (outs rxStep {} ([.data [0xEB, 0x90, 0xEB]] ++ [.timeout
      [0x90, 0xEB, 0x90, 0x08, 0x07, 0xEB, 0x90, 0xEB, 0x90, 0xEB, 0x90, 0x08, 0x17]])).flatMap
      ctrlReplies = [0x07, 0x17] :=
  (ctrl_replies_iff rfl rfl [0x07, 0x17] [.data [0xEB, 0x90, 0xEB]]
    [0x90, 0xEB, 0x90, 0x08, 0x07, 0xEB, 0x90, 0xEB, 0x90, 0xEB, 0x90, 0x08, 0x17] (by decide)
    (by decide +kernel)).mpr (by decide +kernel)

/-- **A lost ACK**: with a pause inside of the reply both parts are dropped. -/
theorem not_ctrl_replies : ¬ ∀ (cmds : List UInt8) (es : List UartEvent) (last : List UInt8),
    (es ++ [UartEvent.timeout last]).flatMap UartEvent.arrived = cmds.flatMap ctrlReplyBytes →
    EachStep rxStep Within {} (es ++ [.timeout last]) →
    (outs rxStep {} (es ++ [.timeout last])).flatMap ctrlReplies = cmds := by
  intro hall
  have h := hall [0x0B] [.timeout [0xEB, 0x90, 0xEB]] [0x90, 0xEB, 0x90, 0x08, 0x0B] (by decide)
    (by decide +kernel)
  exact absurd h (by decide +kernel)

end BleHidUart.Uart.CtrlReplies
