import BleHidUart.Uart.Segments
import BleHidUart.V3.Deframe
import Mathlib.Data.List.Flatten

/-!
# V3 replies in segments

`mcu_replies_iff`: a stream of replies of 20 bytes is forwarded reply by reply exactly when every
TIMEOUT finds at most one reply, and the lone first byte of a reply only where the second cell still
has the second byte. Otherwise the receiver drops bytes, and with them replies.
-/

namespace BleHidUart.Uart.V3Replies

open BleHidUart.Board BleHidUart.Lib.Framing BleHidUart.Lib.Memory BleHidUart.Lib.Run
open BleHidUart.Lib.Stream BleHidUart.Lib.Word BleHidUart.Uart.Receiver BleHidUart.Uart.Segments
open BleHidUart.V3.Deframe BleHidUart.V3.Handlers BleHidUart.V3.Parser

/-- The calls of `V3_handle_mcu_reply`. -/
def IsMcuReply : HandlerCall → Bool
  | .mcuReply _ _ => true
  | _ => false

/-- The calls of `V3_handle_mcu_reply` that a call of the receiver leads to. -/
def callReplies : RxCall → List HandlerCall
  | .mcuData data => (v3HandleMcuData data (UInt16.ofNat data.length)).filter IsMcuReply
  | _ => []

/-- The bytes of these replies. -/
def replyBytes (c : RxCall) : List UInt8 := (callReplies c).flatMap HandlerCall.frame

/-- Those in an output. -/
def mcuReplies : RxOut → List HandlerCall
  | .store _ => []
  | .call c => callReplies c

/-- The frames of the replies as the flow. -/
abbrev v3Flow : Flow RxState UartEvent RxOut UInt8 := rxFlow replyBytes

/-- A stream of V3 replies. -/
def Replies (bs : List UInt8) : Prop := ∃ fs : List NormalFrame, bs = fs.flatMap NormalFrame.bytes

/-- A TIMEOUT finds at most one reply, and a lone first byte only with the second byte behind it. -/
def AtMostOne (u : RxState) : UartEvent → Prop
  | .data _ => True
  | .timeout arrived =>
    u.usartRxCnt + u.fifo.length + arrived.length ≤ 20 ∧
      (u.usartRxCnt + u.fifo.length + arrived.length = 1 → u.rxSendata 1 = v3FrameHead1)

instance : ∀ (u : RxState) (e : UartEvent), Decidable (AtMostOne u e)
  | _, .data _ => .isTrue trivial
  | _, .timeout _ => inferInstanceAs (Decidable (_ ∧ (_ → _)))

theorem mcuReply_spec {data : List UInt8} : ∀ k ∈ v3HandleMcuData data (UInt16.ofNat data.length),
    IsMcuReply k = true → k.frame.length = 20 ∧ k = .mcuReply k.frame (byteAt k.frame 2) := by
  have hlen : (UInt16.ofNat data.length).toNat ≤ data.length := by
    rw [UInt16.toNat_ofNat']
    exact Nat.mod_le _ _
  unfold v3HandleMcuData
  split_ifs
  · exact fun k hk => absurd hk List.not_mem_nil
  refine forall_v3ParseLoop (fun cmd frame happ => absurd happ Bool.false_ne_true)
    (fun offset n k hoff _ hpkt hk _ => ?_) _ _
  obtain ⟨hcmd, rfl⟩ := v3Dispatch_mcu hk
  rw [v3PktLen_normal hcmd] at hpkt
  obtain rfl := Option.some.inj hpkt
  have hsize : v3FrameSizeNormal = 20 := rfl
  have htwo : byteAt ((data.drop offset).take v3FrameSizeNormal) 2 = byteAt data (offset + 2) := by
    rw [← byteAt_drop, byteAt_take (by omega)]
  refine ⟨?_, congrArg _ htwo.symm⟩
  show ((data.drop offset).take v3FrameSizeNormal).length = 20
  rw [List.length_take, List.length_drop]
  omega

theorem callReplies_spec {c : RxCall} {k : HandlerCall} (hk : k ∈ callReplies c) :
    k.frame.length = 20 ∧ k = .mcuReply k.frame (byteAt k.frame 2) := by
  cases c with
  | mcuData data =>
    obtain ⟨hmem, hreply⟩ := List.mem_filter.mp hk
    exact mcuReply_spec k hmem hreply
  | ctrlReply cmd => cases hk
  | protocolData data => cases hk
  | ucCmd data => cases hk

theorem callReplies_mcuData {data : List UInt8} (h : data.length ≤ 65535) :
    callReplies (.mcuData data) = (deframe (v3Scan false) data).filter IsMcuReply := by
  rw [← v3HandleMcuData_eq h]
  rfl

theorem length_replyBytes {data : List UInt8} (h : data.length ≤ 65535) :
    (replyBytes (.mcuData data)).length ≤ data.length := by
  unfold replyBytes
  rw [callReplies_mcuData h]
  exact le_trans ((List.filter_sublist.flatMap _).length_le)
    (length_deframe_le (sound_v3Scan false) data)

theorem callReplies_bytes (f : NormalFrame) :
    callReplies (.mcuData f.bytes) = [.mcuReply f.bytes f.cmd] := by
  show (v3HandleMcuData f.bytes (UInt16.ofNat f.bytes.length)).filter IsMcuReply = _
  rw [v3HandleMcuData_reply]
  rfl

theorem exists_reply {bs future : List UInt8} (h : Replies (bs ++ future)) (hne : bs ≠ []) :
    ∃ (f : NormalFrame) (rest : List UInt8), bs ++ future = f.bytes ++ rest ∧ Replies rest ∧
      ∀ i, i < bs.length → i < 20 → byteAt bs i = byteAt f.bytes i := by
  obtain ⟨fs, hfs⟩ := h
  cases fs with
  | nil => exact absurd (List.append_eq_nil_iff.mp hfs).1 hne
  | cons f fs =>
    refine ⟨f, fs.flatMap NormalFrame.bytes, hfs, ⟨fs, rfl⟩, fun i hi h20 => ?_⟩
    have hleft : byteAt (bs ++ future) i = byteAt bs i := List.getD_append _ _ _ _ hi
    have hright : byteAt (f.bytes ++ fs.flatMap NormalFrame.bytes) i = byteAt f.bytes i :=
      List.getD_append _ _ _ _ (by rw [f.size]; exact h20)
    rw [← hleft, hfs, List.flatMap_cons, hright]

theorem v3FrameSizeFromCmd_normal (f : NormalFrame) : v3FrameSizeFromCmd f.cmd = 20 := by
  rcases f.kind with h | h <;> rw [h] <;> rfl

theorem looksV3_reply {v : RxState} {f : NormalFrame} (hpos : 0 < v.usartRxCnt)
    (hbyte : ∀ i, i < v.usartRxCnt → i < 20 → byteAt (buffered v) i = byteAt f.bytes i)
    (hone : v.usartRxCnt = 1 → v.rxSendata 1 = v3FrameHead1) : LooksV3 v := by
  obtain ⟨h0, h1, -⟩ := f.byteAt_head
  refine ⟨hpos, ?_, ?_⟩
  · rw [← byteAt_buffered hpos, hbyte 0 hpos (by omega), h0]
  · by_cases h : v.usartRxCnt = 1
    · exact hone h
    · rw [← byteAt_buffered (by omega), hbyte 1 (by omega) (by omega), h1]

theorem completeV3_reply {v : RxState} {f : NormalFrame}
    (hbyte : ∀ i, i < v.usartRxCnt → i < 20 → byteAt (buffered v) i = byteAt f.bytes i) :
    CompleteV3 v ↔ 20 ≤ v.usartRxCnt := by
  obtain ⟨-, -, h2⟩ := f.byteAt_head
  unfold CompleteV3
  by_cases h3 : 3 ≤ v.usartRxCnt
  · have hcmd : v.rxSendata 2 = f.cmd := by
      rw [← byteAt_buffered (by omega), hbyte 2 (by omega) (by omega), h2]
    rw [hcmd, v3FrameSizeFromCmd_normal]
    omega
  · omega

/-- A complete reply is handed on, and what is behind it is dropped. -/
theorem timeoutTail_reply {v : RxState} {f : NormalFrame} {future rest : List UInt8}
    (h20 : 20 ≤ v.usartRxCnt) (heq : buffered v ++ future = f.bytes ++ rest)
    (hbyte : ∀ i, i < v.usartRxCnt → i < 20 → byteAt (buffered v) i = byteAt f.bytes i) :
    timeoutTail v = ({ v with usartRxCnt := 0 }, [.mcuData f.bytes]) := by
  have hv := looksV3_reply (by omega) hbyte (fun h => by omega)
  have hcmd : v.rxSendata 2 = f.cmd := by
    rw [← byteAt_buffered (by omega), hbyte 2 (by omega) (by omega), f.byteAt_head.2.2]
  have hslice : slice v.rxSendata 0 20 = f.bytes := by
    obtain ⟨n, hn⟩ := Nat.exists_eq_add_of_le h20
    have hsplit : buffered v = slice v.rxSendata 0 20 ++ slice v.rxSendata 20 n := by
      unfold buffered
      rw [hn, slice_add]
    rw [hsplit, List.append_assoc] at heq
    exact (List.append_inj heq (by rw [length_slice, f.size])).1
  rw [timeoutTail_of_not (not_hasCtrlReply hv), if_pos hv,
    if_pos ((completeV3_reply hbyte).mpr h20), hcmd, v3FrameSizeFromCmd_normal, hslice]

theorem tailLeft_reply {v : RxState} {f : NormalFrame} {future rest : List UInt8}
    (h20 : 20 ≤ v.usartRxCnt) (heq : buffered v ++ future = f.bytes ++ rest)
    (hbyte : ∀ i, i < v.usartRxCnt → i < 20 → byteAt (buffered v) i = byteAt f.bytes i) :
    tailLeft replyBytes v = f.bytes ∧ buffered (timeoutTail v).1 = [] := by
  have htail := timeoutTail_reply h20 heq hbyte
  have hheld : buffered (timeoutTail v).1 = [] := buffered_eq_nil (by rw [htail])
  have hbytes : replyBytes (.mcuData f.bytes) = f.bytes := by
    unfold replyBytes
    rw [callReplies_bytes]
    exact List.append_nil _
  refine ⟨?_, hheld⟩
  unfold tailLeft
  rw [hheld, List.append_nil, htail, List.flatMap_singleton]
  exact hbytes

theorem v3_shrinks {v : RxState} (h : v.usartRxCnt ≤ rxBufferSize) :
    (tailLeft replyBytes v).length ≤ v.usartRxCnt := by
  have hsize : rxBufferSize = 240 := rfl
  unfold tailLeft
  rw [List.length_append, length_buffered]
  by_cases hr : HasCtrlReply v
  · have hnone : (otaReplyLoop v.usartRxCnt v).2.flatMap replyBytes = [] := by
      refine List.flatMap_eq_nil_iff.mpr fun c hc => ?_
      obtain ⟨cmd, rfl⟩ := otaReplyLoop_calls _ _ c hc
      rfl
    rw [timeoutTail_ctrl hr, hnone]
    exact Nat.zero_le _
  · rw [timeoutTail_of_not hr]
    split_ifs with hv hc
    · have hcomplete := hc.2.2
      have hlen : (slice v.rxSendata 0 (v3FrameSizeFromCmd (v.rxSendata 2))).length =
          v3FrameSizeFromCmd (v.rxSendata 2) := length_slice _ _ _
      have hle := length_replyBytes (show _ ≤ 65535 by rw [hlen]; omega)
      rw [List.flatMap_cons, List.flatMap_nil, List.append_nil]
      dsimp only
      omega
    · exact Nat.le_of_eq (Nat.zero_add _)
    · exact Nat.zero_le _

theorem tailLeft_legacy {v : RxState} (hr : ¬ HasCtrlReply v) (hv : ¬ LooksV3 v) :
    tailLeft replyBytes v = [] ∧ buffered (timeoutTail v).1 = [] := by
  unfold tailLeft
  rw [timeoutTail_of_not hr, if_neg hv]
  exact ⟨rfl, rfl⟩

/-- At most one reply is found: it is handed on as a whole or kept. -/
theorem v3_passes {v : RxState} {future : List UInt8} (hgood : Replies (buffered v ++ future))
    (hle : v.usartRxCnt ≤ 20) (hone : v.usartRxCnt = 1 → v.rxSendata 1 = v3FrameHead1) :
    tailLeft replyBytes v = buffered v ∧ Replies (buffered (timeoutTail v).1 ++ future) := by
  by_cases hzero : v.usartRxCnt = 0
  · have hnil := buffered_eq_nil hzero
    obtain ⟨hleft, hheld⟩ := tailLeft_legacy (not_hasCtrlReply_of_lt (by omega))
      (not_looksV3_of_zero hzero)
    rw [hleft, hheld, hnil]
    rw [hnil] at hgood
    exact ⟨rfl, hgood⟩
  obtain ⟨f, rest, heq, hrest, hbyte⟩ := exists_reply hgood (buffered_ne_nil hzero)
  rw [length_buffered] at hbyte
  have hv := looksV3_reply (by omega) hbyte hone
  by_cases hfull : v.usartRxCnt = 20
  · obtain ⟨hleft, hheld⟩ := tailLeft_reply (by omega) heq hbyte
    obtain ⟨hbuf, hfuture⟩ := List.append_inj heq (by rw [length_buffered, hfull, f.size])
    rw [hleft, hheld, hfuture]
    exact ⟨hbuf.symm, hrest⟩
  · have hc : ¬ CompleteV3 v := fun hc => by
      have h20 := (completeV3_reply hbyte).mp hc
      omega
    have htail : timeoutTail v = (v, []) := by
      rw [timeoutTail_of_not (not_hasCtrlReply hv), if_pos hv, if_neg hc]
    unfold tailLeft
    rw [htail]
    exact ⟨rfl, hgood⟩

/-- Bytes behind a reply are dropped; so is a lone first byte that is not recognised. -/
theorem v3_loses {v : RxState} {future : List UInt8} (hgood : Replies (buffered v ++ future))
    (h : 20 < v.usartRxCnt ∨ v.usartRxCnt = 1 ∧ v.rxSendata 1 ≠ v3FrameHead1) :
    (tailLeft replyBytes v).length < v.usartRxCnt := by
  rcases h with hmore | ⟨hone, hstale⟩
  · obtain ⟨f, rest, heq, -, hbyte⟩ := exists_reply hgood (buffered_ne_nil (by omega))
    rw [length_buffered] at hbyte
    rw [(tailLeft_reply (by omega) heq hbyte).1, f.size]
    exact hmore
  · rw [(tailLeft_legacy (not_hasCtrlReply_of_lt (by omega)) fun hv => hstale hv.2.2).1, hone]
    exact Nat.zero_lt_one

/-- A TIMEOUT that finds one byte does not touch the second cell. -/
theorem filled_second {u : RxState} {arrived : List UInt8}
    (h : (filled u (.timeout arrived)).usartRxCnt = 1) :
    (filled u (.timeout arrived)).rxSendata 1 = u.rxSendata 1 := by
  refine store_of_ge ?_
  have hlen : u.usartRxCnt + (u.fifo ++ arrived).length = 1 := h
  rw [List.length_take]
  show u.usartRxCnt + min (u.fifo ++ arrived).length (u.fifo ++ arrived).length ≤ 1
  omega

/-- **V3 replies flow through the receiver** without a loss where at most one is collected. -/
theorem v3Channel : Channel rxStep v3Flow Within AtMostOne Replies := by
  refine rxChannel (fun _ _ => trivial) (fun v hv => v3_shrinks hv) ?_ ?_
  · intro u arrived future hgood hC
    obtain ⟨hle, hone⟩ := hC
    rw [← filled_usartRxCnt] at hle hone
    exact v3_passes hgood hle fun h => (filled_second h).trans (hone h)
  · intro u arrived future hgood hC
    refine v3_loses hgood ?_
    by_contra hno
    obtain ⟨hle, hone⟩ := not_or.mp hno
    refine hC ⟨?_, fun h => ?_⟩
    · rw [← filled_usartRxCnt]
      omega
    · rw [← filled_usartRxCnt] at h
      rw [← filled_second h]
      exact not_not.mp fun hstale => hone ⟨h, hstale⟩

/-- **V3 replies in segments**: the replies of the stream are all forwarded, in order and with their
bytes, exactly when every TIMEOUT finds at most one. -/
theorem mcu_replies_iff {u : RxState} (hcnt : u.usartRxCnt = 0) (hfifo : u.fifo = [])
    (fs : List NormalFrame) (es : List UartEvent) (last : List UInt8)
    (harr : (es ++ [UartEvent.timeout last]).flatMap UartEvent.arrived =
      fs.flatMap NormalFrame.bytes)
    (hG : EachStep rxStep Within u (es ++ [.timeout last])) :
    (outs rxStep u (es ++ [.timeout last])).flatMap mcuReplies =
        fs.map (fun f => .mcuReply f.bytes f.cmd) ↔
      EachStep rxStep AtMostOne u (es ++ [.timeout last]) := by
  have h0 : v3Flow.held u = [] := held_eq_nil hcnt hfifo
  have hgood : Replies (fs.flatMap NormalFrame.bytes) := ⟨fs, rfl⟩
  have hsize : ∀ f : NormalFrame, (NormalFrame.bytes f).length = 20 := fun f => f.size
  have hout : ∀ f : NormalFrame, HandlerCall.frame (.mcuReply f.bytes f.cmd) = f.bytes :=
    fun _ => rfl
  refine v3Channel.frames_iff (by omega) hsize (fun o => ?_) hout (fun o k hk => ?_) hG h0 harr
    hgood (fun hC => ?_)
  · cases o <;> rfl
  · cases o with
    | store i => cases hk
    | call c =>
      obtain ⟨hlen, hform⟩ := callReplies_spec hk
      refine ⟨hlen, fun f hf => ?_⟩
      rw [hform, hf, f.byteAt_head.2.2]
  · have hfinal := v3Channel.good_final hG (by rw [h0, List.nil_append]; rwa [← harr] at hgood) hC
    obtain ⟨v, hv⟩ := held_final_timeout replyBytes hG
    rw [hv] at hfinal ⊢
    rcases (timeoutTail_cases v).2 with hzero | ⟨-, hc, hkept⟩
    · exact buffered_eq_nil hzero
    · -- what is kept would be a whole reply
      rw [hkept] at hfinal ⊢
      by_contra hne
      rw [← List.append_nil (buffered v)] at hfinal
      obtain ⟨f, rest, heq, -, hbyte⟩ := exists_reply hfinal hne
      rw [length_buffered] at hbyte
      have hlen := congrArg List.length heq
      rw [List.append_nil, List.length_append, length_buffered, f.size] at hlen
      exact hc ((completeV3_reply hbyte).mpr (by omega))

/-- Two replies, the first one with a pause inside of it. -/
theorem mcu_replies_pause :
    (outs rxStep {} ([.data [0x53, 0x35, 0x0F], .timeout [0x02, 0x00],
      .timeout ((readFrame 2 0x13).bytes.drop 5)] ++
      [.timeout (readFrame 3 0x15).bytes])).flatMap mcuReplies =
      [.mcuReply (readFrame 2 0x13).bytes 0x0F, .mcuReply (readFrame 3 0x15).bytes 0x0F] :=
  (mcu_replies_iff rfl rfl [readFrame 2 0x13, readFrame 3 0x15] [.data [0x53, 0x35, 0x0F],
    .timeout [0x02, 0x00], .timeout ((readFrame 2 0x13).bytes.drop 5)] (readFrame 3 0x15).bytes
    (by decide) (by decide +kernel)).mpr (by decide +kernel)

/-- **A lost reply**: of two replies before one pause the second one is dropped. -/
theorem not_mcu_replies : ¬ ∀ (fs : List NormalFrame) (es : List UartEvent) (last : List UInt8),
    (es ++ [UartEvent.timeout last]).flatMap UartEvent.arrived = fs.flatMap NormalFrame.bytes →
    EachStep rxStep Within {} (es ++ [.timeout last]) →
    (outs rxStep {} (es ++ [.timeout last])).flatMap mcuReplies =
      fs.map (fun f => .mcuReply f.bytes f.cmd) := by
  intro hall
  have h := hall [readFrame 2 0x13, readFrame 3 0x15] []
    ((readFrame 2 0x13).bytes ++ (readFrame 3 0x15).bytes) (by decide) (by decide +kernel)
  exact absurd h (by decide +kernel)

end BleHidUart.Uart.V3Replies
