import BleHidUart.Firmware.Reads

/-!
# A handler stays in its frame

`yields_call`: a handler reads nothing but its own frame, and does what it does on the frame as a
list, if the frame has the length that it counts on (`Fits`). `fits_of_scan`: the parser only calls
it with such frames.
-/

namespace BleHidUart.Firmware.Frames

open BleHidUart.Board BleHidUart.Lib.Memory BleHidUart.Lib.ReadLog BleHidUart.Lib.ReadLog.Reading
open BleHidUart.Lib.Word BleHidUart.Ota.Handlers BleHidUart.Firmware.Dispatch
open BleHidUart.Firmware.Reads BleHidUart.V2.Bridge BleHidUart.V3.Bridge BleHidUart.V3.Deframe
open BleHidUart.V3.Handlers BleHidUart.V3.Parser

/-! ### The handlers stay in their frames -/

/-- The frame is what the memory holds at its start. -/
def Agrees (mem : ℕ → UInt8) (frame : List UInt8) : Prop :=
  ∀ i, i < frame.length → mem i = byteAt frame i

theorem toNat_otaValidLen_le (c : OtaContext) (contentLen : UInt16) :
    (otaValidLen c contentLen).toNat ≤ contentLen.toNat := by
  unfold otaValidLen
  by_cases hle : contentLen.toUInt32 ≤ c.fileLength - c.receivedLength
  · rw [if_pos hle]
  · rw [if_neg hle]
    have hlt := UInt32.lt_iff_toNat_lt.mp (UInt32.not_le.mp hle)
    rw [UInt16.toNat_toUInt32] at hlt
    rw [UInt32.toNat_toUInt16]
    omega

theorem otaStorePacket_take (c : OtaContext) (content : List UInt8) (contentLen : UInt16) :
    otaStorePacket c (content.take (otaValidLen c contentLen).toNat) contentLen =
      otaStorePacket c content contentLen := by
  simp only [otaStorePacket, List.take_take, min_self]

section Handlers
variable {mem : ℕ → UInt8} {frame : List UInt8} (h : Agrees mem frame)
include h

theorem yields_byte {i : ℕ} (hi : i < frame.length) :
    Yields frame.length (read i) mem (byteAt frame i) := by
  rw [← h i hi]
  exact yields_read hi

theorem yields_range {i n : ℕ} (hi : i + n ≤ frame.length) :
    Yields frame.length (readRange i n) mem ((frame.drop i).take n) := by
  have hslice : slice mem i n = (frame.drop i).take n := by
    have hlen : ((frame.drop i).take n).length = n := by
      rw [List.length_take, List.length_drop]
      omega
    refine List.ext_getElem (by rw [length_slice, hlen]) fun j h1 h2 => ?_
    rw [length_slice] at h1
    rw [getElem_slice, h (i + j) (by omega), List.getElem_take, List.getElem_drop, byteAt,
      List.getD_eq_getElem _ _ (by omega)]
  rw [← hslice]
  exact yields_readRange hi

theorem yields_crcVerify {count crcOffset : UInt8} (hc : 2 + count.toNat ≤ frame.length)
    (ho : crcOffset.toNat + 1 < frame.length) :
    Yields frame.length (v3CrcVerifyReads count crcOffset) mem
      (v3CrcVerify frame count crcOffset) := by
  have hcalc : Yields frame.length (v3CrcCalculateReads count) mem (v3CrcCalculate frame count) :=
    yields_bind (yields_range h hc) (yields_pure _)
  refine yields_bind hcalc (yields_bind (yields_byte h (by omega)) ?_)
  by_cases hlow : byteAt frame crcOffset.toNat = (v3CrcCalculate frame count &&& 0xFF).toUInt8
  · rw [if_pos hlow]
    have hverify : v3CrcVerify frame count crcOffset =
        decide (byteAt frame (crcOffset.toNat + 1) =
          (v3CrcCalculate frame count >>> 8 &&& 0xFF).toUInt8) := by
      simp only [v3CrcVerify, hlow, true_and]
    rw [hverify]
    exact yields_bind (yields_byte h ho) (yields_pure _)
  · rw [if_neg hlow]
    have hverify : v3CrcVerify frame count crcOffset = false := by
      simp only [v3CrcVerify, hlow, false_and, decide_false]
    rw [hverify]
    exact yields_pure _

theorem yields_handshake (hn : 9 ≤ frame.length) (e : Eeprom) :
    Yields frame.length (v3HandleHandshakeReads e) mem (v3HandleHandshake e frame) := by
  refine yields_bind (yields_crcVerify h (Nat.le_trans (by decide) hn)
    (Nat.le_trans (by decide) hn)) (yields_ite (fun _ => yields_pure _) fun _ => ?_)
  refine yields_bind (a := v3BuildHandshakeReply e frame) ?_ (yields_pure _)
  exact yields_bind (yields_byte h (by omega)) (yields_bind (yields_byte h (by omega))
    (yields_bind (yields_byte h (by omega))
      (yields_bind (yields_byte h (by omega)) (yields_pure _))))

theorem yields_readWrite (hn : 20 ≤ frame.length) (s : V3BridgeState) (cmd : UInt8) (now : UInt32) :
    Yields frame.length (v3HandleReadWriteReads s cmd now) mem
    (v3HandleReadWrite s frame cmd now) := by
  refine yields_bind (yields_byte h (by omega)) (yields_bind (yields_crcVerify h
    (Nat.le_trans (by decide) hn) (Nat.le_trans (by decide) hn))
    (yields_ite (fun _ => yields_pure _) fun _ => ?_))
  exact yields_bind (yields_range h (by simp only [v3FrameSizeNormal]; omega)) (yields_pure _)

theorem yields_mcuReply (hn : 20 ≤ frame.length) (s : V3BridgeState) (cmd : UInt8) :
    Yields frame.length (v3HandleMcuReplyReads s cmd) mem (v3HandleMcuReply s frame cmd) := by
  refine yields_bind (yields_byte h (by omega)) (yields_bind (yields_crcVerify h
    (Nat.le_trans (by decide) hn) (Nat.le_trans (by decide) hn))
    (yields_ite (fun _ => yields_pure _) fun _ => ?_))
  exact yields_bind (yields_range h (by simp only [v3FrameSizeNormal]; omega)) (yields_pure _)

theorem yields_appCmd {appCmd : UInt8} (hn : appCmd = appCmdHandshakeRsp → 7 ≤ frame.length)
    (s : BleState) (now : UInt32) :
    Yields frame.length (handleAppCmdAndReplyReads s appCmd now) mem
      (handleAppCmdAndReply s appCmd frame now) := by
  unfold handleAppCmdAndReplyReads handleAppCmdAndReply
  by_cases hcmd : appCmd = appCmdHandshakeRsp
  · have hseven := hn hcmd
    rw [if_pos hcmd, if_pos hcmd]
    refine yields_ite (fun _ => yields_pure _) fun _ => ?_
    exact yields_bind (yields_byte h (by omega)) (yields_bind (yields_byte h (by omega))
      (yields_bind (yields_byte h (by omega))
        (yields_bind (yields_byte h (by omega)) (yields_pure _))))
  · rw [if_neg hcmd, if_neg hcmd, if_neg hcmd]
    exact yields_pure _

theorem yields_le32 {i : ℕ} (hi : i + 4 ≤ frame.length) :
    Yields frame.length (le32Reads i) mem (le32At frame i) :=
  yields_bind (yields_byte h (by omega)) (yields_bind (yields_byte h (by omega))
    (yields_bind (yields_byte h (by omega))
      (yields_bind (yields_byte h (by omega)) (yields_pure _))))

theorem yields_otaStart (hn : 12 ≤ frame.length) (c : OtaContext) :
    Yields frame.length (otaHandleStartRequestReads c) mem (otaHandleStartRequest c frame) := by
  refine yields_ite (fun _ => yields_pure _) fun _ => ?_
  refine yields_bind (yields_le32 h (by omega)) (yields_bind (yields_le32 h (by omega)) ?_)
  exact yields_ite (fun _ => yields_pure _) fun _ => yields_ite (fun _ => yields_pure _)
    fun _ => yields_pure _

theorem yields_otaData {frameLen : UInt16} (hn : frame.length = frameLen.toNat) (c : OtaContext) :
    Yields frame.length (otaHandleDataPacketReads c frameLen) mem
      (otaHandleDataPacket c frame frameLen) := by
  refine yields_ite (fun _ => yields_pure _) fun _ =>
    yields_ite (fun _ => yields_pure _) fun hrange => ?_
  have hmin : otaFrameDataMinSize ≤ frameLen := UInt16.not_lt.mp fun hlt => hrange (.inl hlt)
  have height : 8 ≤ frameLen.toNat := UInt16.le_iff_toNat_le.mp hmin
  have hcontent : (frameLen - 8).toNat = frameLen.toNat - 8 := UInt16.toNat_sub_of_le _ _ hmin
  have hlast : (frameLen - 1).toNat = frameLen.toNat - 1 :=
    UInt16.toNat_sub_of_le _ _ (UInt16.le_iff_toNat_le.mpr (le_trans (by decide) height))
  have hvalid := toNat_otaValidLen_le c (frameLen - 8)
  refine yields_bind (yields_byte h (by omega)) (yields_bind (yields_byte h (by omega))
    (yields_ite (fun _ => yields_pure _) fun _ => ?_))
  refine yields_bind (yields_range h (by omega)) (yields_bind (yields_byte h (by omega))
    (yields_ite (fun _ => yields_pure _) fun _ => ?_))
  refine yields_bind (yields_byte h (by omega)) (yields_bind (yields_range h (by omega)) ?_)
  have hstored : otaStorePacket c ((frame.drop 7).take (otaValidLen c (frameLen - 8)).toNat)
      (frameLen - 8) = otaStorePacket c ((frame.drop 7).take (frameLen - 8).toNat)
      (frameLen - 8) := by
    rw [← otaStorePacket_take c ((frame.drop 7).take (frameLen - 8).toNat), List.take_take,
      min_eq_left hvalid]
  rw [hstored]
  exact yields_ite (fun _ => yields_pure _) fun _ => yields_pure _

theorem yields_packageRetry (hn : 5 ≤ frame.length) (c : OtaContext) :
    Yields frame.length (otaPackageRetryReads c) mem (otaPackageRetry c frame) :=
  yields_bind (yields_byte h (by omega))
    (yields_ite (fun _ => yields_pure _) fun _ => yields_pure _)

theorem yields_eraseRetry (hn : 5 ≤ frame.length) (c : OtaContext) :
    Yields frame.length (otaEraseRetryReads c) mem (otaEraseRetry c frame) :=
  yields_bind (yields_byte h (by omega))
    (yields_ite (fun _ => yields_pure _) fun _ => yields_pure _)

end Handlers

/-! ### Calls -/

/-- The frame has the length its handler counts on. -/
def Fits : HandlerCall → Prop
  | .appCmd appCmd frame => appCmd = appCmdHandshakeRsp → 7 ≤ frame.length
  | .handshake frame => 9 ≤ frame.length
  | .readWrite frame _ | .mcuReply frame _ => 20 ≤ frame.length
  | .otaStart frame => 12 ≤ frame.length
  | .otaData frame frameLen => frame.length = frameLen.toNat
  | .packageRetry frame | .eraseRetry frame => 5 ≤ frame.length

/-- **A handler only reads its own frame**, and does what it does on the frame as a list. -/
theorem yields_call {mem : ℕ → UInt8} {k : HandlerCall} (h : Agrees mem k.frame) (hfit : Fits k)
    (b : Bridge) (now : UInt32) :
    Yields k.frame.length (callHandlerReads b k now) mem (callHandler b k now) := by
  cases k with
  | appCmd appCmd frame => exact yields_bind (yields_appCmd h hfit b.ble now) (yields_pure _)
  | handshake frame => exact yields_bind (yields_handshake h hfit b.ee) (yields_pure _)
  | readWrite frame cmd =>
    exact yields_bind (yields_readWrite h hfit b.ble.v3 cmd now) (yields_pure _)
  | mcuReply frame cmd => exact yields_bind (yields_mcuReply h hfit b.ble.v3 cmd) (yields_pure _)
  | otaStart frame => exact yields_bind (yields_otaStart h hfit b.ota) (yields_pure _)
  | otaData frame frameLen => exact yields_bind (yields_otaData h hfit b.ota) (yields_pure _)
  | packageRetry frame => exact yields_bind (yields_packageRetry h hfit b.ota) (yields_pure _)
  | eraseRetry frame => exact yields_bind (yields_eraseRetry h hfit b.ota) (yields_pure _)

/-- A call without the bytes of its frame. -/
def blank : HandlerCall → HandlerCall
  | .appCmd appCmd _ => .appCmd appCmd []
  | .handshake _ => .handshake []
  | .readWrite _ cmd => .readWrite [] cmd
  | .mcuReply _ cmd => .mcuReply [] cmd
  | .otaStart _ => .otaStart []
  | .otaData _ frameLen => .otaData [] frameLen
  | .packageRetry _ => .packageRetry []
  | .eraseRetry _ => .eraseRetry []

theorem callHandlerReads_blank (b : Bridge) (k : HandlerCall) (now : UInt32) :
    callHandlerReads b (blank k) now = callHandlerReads b k now := by
  cases k <;> rfl

/-- The length the parser takes for a frame fits its handler. -/
theorem fits_of_dispatch {fromApp : Bool} {cmd len : UInt8} {frame : List UInt8} {n : ℕ}
    {k : HandlerCall} (hpkt : v3PktLen cmd len = some n) (hframe : frame.length = n)
    (h : v3Dispatch fromApp cmd frame n = some k) : Fits k := by
  have hge := v3PktLen_ge hpkt
  have hstart : v3PktLen otaCmdStart len =
      if len.toNat ≠ otaFrameStartReqSize then none else some len.toNat := rfl
  have hdata : v3PktLen otaCmdData len =
      if len.toUInt16 < otaFrameDataMinSize ∨ otaFrameDataMaxSize < len.toUInt16 then none
      else some len.toNat := rfl
  unfold v3Dispatch at h
  split_ifs at h with h1 h2 h3 h4 h5 h6 h7 h8
  · obtain rfl := Option.some.inj h
    rw [h1] at hpkt
    exact (hframe.trans (Option.some.inj hpkt).symm).ge
  · obtain rfl := Option.some.inj h
    exact (hframe.trans (Option.some.inj ((v3PktLen_normal h3).symm.trans hpkt)).symm).ge
  · obtain rfl := Option.some.inj h
    exact (hframe.trans (Option.some.inj ((v3PktLen_normal h3).symm.trans hpkt)).symm).ge
  · obtain rfl := Option.some.inj h
    rw [h5.1, hstart] at hpkt
    split_ifs at hpkt with hsize
    rw [← Option.some.inj hpkt, not_not.mp hsize] at hframe
    exact hframe.ge
  · obtain rfl := Option.some.inj h
    rw [h6.1, hdata] at hpkt
    split_ifs at hpkt
    have hsmall := len.toNat_lt
    have hn := Option.some.inj hpkt
    exact hframe.trans (UInt16.toNat_ofNat_of_lt' (by simp only [UInt16.size]; omega)).symm
  · obtain rfl := Option.some.inj h
    exact hframe.ge.trans' hge
  · obtain rfl := Option.some.inj h
    exact hframe.ge.trans' hge

theorem fits_of_scan {fromApp : Bool} {xs : List UInt8} {n : ℕ} {k : HandlerCall}
    (h : v3Scan fromApp xs = .packet n (some k)) : Fits k := by
  have hle := (sound_v3Scan fromApp xs n (some k) h).2.1
  have htake : (xs.take n).length = n := List.length_take_of_le hle
  unfold v3Scan at h
  split_ifs at h
  · cases hpkt : appPktLen (byteAt xs 1) with
    | none => rw [hpkt] at h; cases h
    | some m =>
      rw [hpkt] at h
      dsimp only at h
      split_ifs at h with hshort htrail
      · injection h with hn hout
        subst hn
        obtain rfl := Option.some.inj hout
        intro hcmd
        rw [hcmd] at hpkt
        exact (htake.trans (Option.some.inj hpkt).symm).ge
      · injection h with _ hout
        cases hout
  · cases hpkt : v3PktLen (byteAt xs 2) (byteAt xs 3) with
    | none => rw [hpkt] at h; cases h
    | some m =>
      rw [hpkt] at h
      dsimp only at h
      split_ifs at h with hshort
      injection h with hn hout
      subst hn
      exact fits_of_dispatch hpkt htake hout

end BleHidUart.Firmware.Frames
