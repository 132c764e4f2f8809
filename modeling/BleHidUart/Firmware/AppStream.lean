import BleHidUart.Firmware.Main
import BleHidUart.Firmware.Notifications

/-!
# What the app is told

All parts of the program notify the app on one characteristic: answers `AA … AA 55`, replies of the
controller, error frames, the answer to the handshake, and the frames of the two OTA sides. Their
kind is told from the first three bytes, and the length from the kind or the byte `3`
(`notifyLength`).

* `app_stream`: on every run of `main` each notification has at most the 20 bytes of the smallest
  ATT payload; and the app gets the notifications back from their concatenation, whatever the stack
  held, exactly when no retry was answered.
-/

namespace BleHidUart.Firmware.AppStream

open BleHidUart.Board BleHidUart.CtrlOta.Machine BleHidUart.CtrlOta.Metadata
open BleHidUart.CtrlOta.Moves BleHidUart.Firmware.Calls BleHidUart.Firmware.Dispatch
open BleHidUart.Firmware.Machine BleHidUart.Firmware.Main BleHidUart.Firmware.Notifications
open BleHidUart.Lib.Framing BleHidUart.Lib.Memory BleHidUart.Lib.Run BleHidUart.Lib.Word
open BleHidUart.Ota.Handlers BleHidUart.V2.Bridge BleHidUart.V3.Bridge BleHidUart.V3.Deframe
open BleHidUart.V3.Handlers BleHidUart.V3.Parser

/-! ### The kinds -/

/-- The length of the notification that starts with these bytes; `0` for no kind. -/
def notifyLength (xs : List UInt8) : ℕ :=
  if byteAt xs 0 = 0xAA then if byteAt xs 1 = appCmdFaultQueryRsp then 5 else 4
  else if byteAt xs 0 = v3FrameHead0 then
    if byteAt xs 2 = v3CmdHandshake then v3FrameSizeHandshakeReply
    else if v3FrameSizeFromCmd (byteAt xs 2) = 0 then (byteAt xs 3).toNat
    else v3FrameSizeFromCmd (byteAt xs 2)
  else 0

/-- The notification has the length of its kind, all of it is written, and it fits into one ATT
payload. -/
structure Told (n : List UInt8 × ℕ) : Prop where
  length : notifyLength n.1 = n.2
  written : n.1.length = n.2
  nonempty : 3 < n.2
  fits : n.2 ≤ 20

/-- A receiver that goes by the kind. -/
def byKind (xs : List UInt8) : Scan (List UInt8) :=
  if 0 < notifyLength xs ∧ notifyLength xs ≤ xs.length then
    .packet (notifyLength xs) (some (xs.take (notifyLength xs)))
  else .skip

/-- What the app gets on the air, from a stack that is different at each of the calls. -/
def onAir (stack : ℕ → ℕ → UInt8) (ns : List (List UInt8 × ℕ)) : List (List UInt8) :=
  ns.mapIdx fun k n => passed (stack k) n

theorem sound_byKind : Sound byKind id := by
  intro xs n out h
  simp only [byKind] at h
  split_ifs at h with hc
  cases h
  refine ⟨hc.1, hc.2, ?_⟩
  rintro k hk
  exact (Option.mem_some_iff.mp hk).symm

theorem byteAt_append {xs ys : List UInt8} {i : ℕ} (h : i < xs.length) :
    byteAt (xs ++ ys) i = byteAt xs i :=
  List.getD_append _ _ _ _ h

theorem notifyLength_append {xs : List UInt8} (h : 3 < xs.length) (ys : List UInt8) :
    notifyLength (xs ++ ys) = notifyLength xs := by
  unfold notifyLength
  rw [byteAt_append (by omega), byteAt_append (by omega), byteAt_append (by omega),
    byteAt_append (by omega)]

theorem Told.passed_eq {n : List UInt8 × ℕ} (h : Told n) (stack : ℕ → UInt8) :
    passed stack n = n.1 := by
  have hw := h.written
  refine List.ext_getElem ?_ fun i h1 h2 => ?_
  · rw [passed, length_slice, hw]
  · exact (getElem_slice h1).trans (store_add (by omega))

theorem Told.recognises {n : List UInt8 × ℕ} (h : Told n) : Recognises byKind n.1 n.1 := by
  have hw := h.written
  have h3 := h.nonempty
  refine ⟨List.ne_nil_of_length_pos (by omega), fun rest => ?_⟩
  have hlen : notifyLength (n.1 ++ rest) = n.1.length := by
    rw [notifyLength_append (by omega), h.length, hw]
  have hle : n.1.length ≤ (n.1 ++ rest).length := by
    rw [List.length_append]
    omega
  simp only [byKind, hlen, List.take_left]
  exact if_pos ⟨by omega, hle⟩

/-- All notifications have the length of their kind, and the app gets them back from their
concatenation, whatever the stack holds. -/
structure WellTold (ns : List (List UInt8 × ℕ)) : Prop where
  told : ∀ n ∈ ns, Told n
  deframed : ∀ stack : ℕ → ℕ → UInt8, deframe byKind (onAir stack ns).flatten = onAir stack ns

theorem wellTold_iff_forall (ns : List (List UInt8 × ℕ)) : WellTold ns ↔ ∀ n ∈ ns, Told n := by
  refine ⟨WellTold.told, fun h => ⟨h, fun stack => ?_⟩⟩
  refine deframe_flatten sound_byKind fun b hb => ?_
  obtain ⟨k, hk, rfl⟩ := List.mem_mapIdx.mp hb
  have htold := h _ (List.getElem_mem hk)
  rw [htold.passed_eq]
  exact htold.recognises

/-! ### The builders -/

theorem told_of {data : List UInt8} {len : ℕ} (hkind : notifyLength data = len)
    (hlen : data.length = len) (h : 3 < len ∧ len ≤ 20) : Told (data, len) :=
  ⟨hkind, hlen, h.1, h.2⟩

theorem told_app {b1 : UInt8} (h : b1 ≠ appCmdFaultQueryRsp) (b2 : UInt8) :
    Told ([0xAA, b1, b2, 0x55], 4) :=
  told_of (if_neg h) rfl (by decide)

theorem told_fault (b2 b3 : UInt8) : Told ([0xAA, appCmdFaultQueryRsp, b2, b3, 0x55], 5) :=
  told_of rfl rfl (by decide)

theorem told_error {errCmd : UInt8} (h : errCmd = v3CmdWriteErr ∨ errCmd = v3CmdReadErr)
    (grp sta : UInt8) : Told (v3BuildErrorReply errCmd grp sta, v3FrameSizeError) := by
  refine told_of ?_ rfl (by decide)
  rcases h with rfl | rfl <;> rfl

theorem told_handshake (e : Eeprom) (frame : List UInt8) :
    Told (v3BuildHandshakeReply e frame, v3FrameSizeHandshakeReply) := told_of rfl rfl (by decide)

theorem told_ota {cmd len : UInt8} {rest : List UInt8}
    (hcmd : cmd ≠ v3CmdHandshake ∧ v3FrameSizeFromCmd cmd = 0)
    (hlen : rest.length + 4 = len.toNat) (hle : 3 < len.toNat ∧ len.toNat ≤ 20) :
    Told (v3FrameHead0 :: v3FrameHead1 :: cmd :: len :: rest, len.toNat) := by
  have hkind : notifyLength (v3FrameHead0 :: v3FrameHead1 :: cmd :: len :: rest) =
      if cmd = v3CmdHandshake then v3FrameSizeHandshakeReply
      else if v3FrameSizeFromCmd cmd = 0 then len.toNat else v3FrameSizeFromCmd cmd := rfl
  rw [if_neg hcmd.1, if_pos hcmd.2] at hkind
  exact told_of hkind (by simpa using hlen) hle

/-- A reply of the controller. -/
def IsReply (frame : List UInt8) : Prop :=
  byteAt frame 0 = v3FrameHead0 ∧
    (byteAt frame 2 = v3CmdWriteCtrl ∨ byteAt frame 2 = v3CmdReadCtrl) ∧
    frame.length = v3FrameSizeNormal

theorem told_reply {frame : List UInt8} (h : IsReply frame) :
    Told (frame.take v3FrameSizeNormal, v3FrameSizeNormal) := by
  obtain ⟨h0, h2, hlen⟩ := h
  rw [List.take_of_length_le hlen.le]
  refine told_of ?_ hlen (by decide)
  unfold notifyLength
  rw [h0, if_neg (by decide), if_pos rfl]
  rcases h2 with h2 | h2 <;> rw [h2] <;> rfl

/-- The answer to a retry is not. -/
theorem not_told_retry (cmd result : UInt8) :
    ¬Told ([v3FrameHead0, v3FrameHead1, cmd, UInt8.ofNat otaFrameFlashEraseRspSize, result],
      otaFrameDataAckSize) :=
  fun h => absurd h.written (by simp [otaFrameDataAckSize])

/-! ### The calls -/

/-- All notifications have the length of their kind. -/
abbrev AllTold (fx : List Effect) : Prop := ∀ n ∈ notifications fx, Told n

theorem allTold_of_nil {fx : List Effect} (h : notifications fx = []) : AllTold fx := fun n hn => by
  rw [h] at hn
  cases hn

theorem allTold_singleton {data : List UInt8} {len : ℕ} (h : Told (data, len)) :
    AllTold [.notify data len] :=
  fun n hn => by rwa [List.mem_singleton.mp hn]

theorem allTold_append {fx gx : List Effect} (h : AllTold fx) (h' : AllTold gx) :
    AllTold (fx ++ gx) := by
  unfold AllTold
  rw [notifications_append]
  exact List.forall_mem_append.mpr ⟨h, h'⟩

theorem allTold_crcError (frame : List UInt8) (cmd : UInt8) : AllTold [v3CrcError frame cmd] := by
  refine allTold_singleton (told_error ?_ _ _)
  split_ifs
  · exact .inl rfl
  · exact .inr rfl

theorem allTold_dataAck (seq : UInt16) (result : UInt8) : AllTold [otaSendDataAck seq result] :=
  allTold_singleton (told_ota (by decide) rfl (by decide))

theorem allTold_reject (c : OtaContext) (seq : UInt16) : AllTold (otaRejectPacket c seq).2 := by
  simp only [otaRejectPacket]
  split_ifs
  · exact allTold_dataAck _ _
  · exact allTold_dataAck _ _

theorem allTold_store (c : OtaContext) (content : List UInt8) (n : UInt16) :
    AllTold (otaStorePacket c content n).2 := by
  simp only [otaStorePacket]
  split_ifs
  · exact allTold_of_nil (notifications_eepromWrite _ _)
  · exact allTold_of_nil rfl

theorem allTold_last (c : OtaContext) (seq : UInt16) : AllTold (otaLastPacket c seq).2 := by
  simp only [otaLastPacket]
  split_ifs
  · rw [← List.singleton_append]
    exact allTold_append (allTold_dataAck _ _) (allTold_of_nil (notifications_readyflag _ _))
  · exact allTold_dataAck _ _

theorem allTold_start (c : OtaContext) (frame : List UInt8) :
    AllTold (otaHandleStartRequest c frame).2 := by
  have hclear : AllTold (writeFlag 0) := allTold_of_nil (notifications_writeFlag 0)
  have hstart : ∀ result, AllTold [otaSendStartResponse result] := fun result =>
    allTold_singleton (told_ota (by decide) rfl (by decide))
  have herase : ∀ result, AllTold [otaSendFlashEraseDone result] := fun result =>
    allTold_singleton (told_ota (by decide) rfl (by decide))
  simp only [otaHandleStartRequest, eepromErase_eq, List.append_nil]
  split_ifs
  · exact allTold_of_nil rfl
  · exact allTold_append hclear (hstart _)
  · exact allTold_append hclear (hstart _)
  · exact allTold_append (allTold_append hclear (hstart _)) (herase _)

theorem allTold_data (c : OtaContext) (frame : List UInt8) (n : UInt16) :
    AllTold (otaHandleDataPacket c frame n).2 := by
  simp only [otaHandleDataPacket]
  split_ifs
  · exact allTold_of_nil rfl
  · exact allTold_of_nil rfl
  · exact allTold_reject _ _
  · exact allTold_reject _ _
  · exact allTold_append (allTold_store _ _ _) (allTold_last _ _)
  · exact allTold_append (allTold_store _ _ _) (allTold_dataAck _ _)

theorem allTold_ctrl (g : CtrlOtaCtx) (e : Eeprom) (i : CtrlEvent) :
    AllTold (ctrlHandle g e i).2 := by
  have hmove := ctrlHandle_move g e i
  generalize (ctrlHandle g e i).1 = g', (ctrlHandle g e i).2 = fx at hmove ⊢
  have hresult : ∀ result, AllTold [ctrlOtaNotifyResult result] := fun result =>
    allTold_singleton (told_ota (by decide) rfl (by decide))
  cases hmove with
  | stay | request | finish | send | timeout | restart | confirm | erased =>
    exact allTold_of_nil rfl
  | ackLast | ackMore => exact allTold_singleton (told_ota (by decide) rfl (by decide))
  | failed | crcFail | refused => exact hresult _
  | success =>
    rw [← List.singleton_append]
    exact allTold_append (hresult _) (allTold_of_nil (notifications_writeFlag _))

theorem allTold_appCmd (s : BleState) (appCmd : UInt8) (frame : List UInt8) (now : UInt32) :
    AllTold (handleAppCmdAndReply s appCmd frame now).2 := by
  have hsend : ∀ c, AllTold (bleSendProtocolCmd s c now).2 := by
    intro c
    unfold bleSendProtocolCmd
    split_ifs <;> exact allTold_of_nil rfl
  simp only [handleAppCmdAndReply]
  split_ifs
  all_goals first
    | exact allTold_of_nil rfl
    | exact hsend _
    | exact allTold_singleton (told_app (by decide) _)

theorem allTold_reply (cmd result : UInt8) (h : cmd ≠ appCmdFaultQueryRsp) :
    AllTold [replyAppStatus cmd result] :=
  allTold_singleton (told_app h result)

theorem allTold_decode (s : BleState) (t : Option BleCmd) (b0 b1 : UInt8) :
    AllTold (decodeReply s t b0 b1).2 := by
  have hfault : AllTold [.notify [0xAA, appCmdFaultQueryRsp, b0, b1, 0x55] 5] :=
    allTold_singleton (told_fault b0 b1)
  rcases t with _ | c
  · exact allTold_of_nil rfl
  · cases c with
    | faultQueryRsp =>
      simp only [decodeReply]
      rw [← List.singleton_append]
      refine allTold_append hfault ?_
      split_ifs <;> exact allTold_of_nil rfl
    | handshakeRsp | unlockStatusRsp | unlockRsp | lockRsp =>
      simp only [decodeReply]
      split_ifs
      all_goals first
        | exact allTold_of_nil rfl
        | exact allTold_reply _ _ (by decide)

theorem allTold_protocol (s : BleState) (data : List UInt8) (now : UInt32) :
    AllTold (handleProtocolData s data now).2 := by
  simp only [handleProtocolData, handleMcuReplydata]
  split_ifs
  · exact allTold_of_nil rfl
  · exact allTold_of_nil rfl
  · split
    · exact allTold_decode _ _ _ _
    · exact allTold_of_nil rfl

theorem allTold_timeouts (now : UInt32) :
    ∀ (cs : List BleCmd) (s : BleState), AllTold (checkTimeouts now cs s).2
  | [], _ => allTold_of_nil rfl
  | c :: cs, s => by
    have hone : AllTold (timeoutOutcome c) := by
      cases c with
      | handshakeRsp => exact allTold_of_nil rfl
      | unlockStatusRsp | unlockRsp | lockRsp => exact allTold_reply _ _ (by decide)
      | faultQueryRsp =>
        rw [timeoutOutcome, ← List.singleton_append]
        exact allTold_append (allTold_singleton (told_fault 0 0)) (allTold_of_nil rfl)
    simp only [checkTimeouts]
    split_ifs
    · exact allTold_append hone (allTold_timeouts now cs _)
    · exact allTold_timeouts now cs s

theorem allTold_v3Timeout (s : V3BridgeState) (now : UInt32) :
    AllTold (v3TimeoutCheck s now).2 := by
  simp only [v3TimeoutCheck]
  split_ifs
  · exact allTold_of_nil rfl
  · exact allTold_singleton (told_error (.inl rfl) _ _)
  · exact allTold_singleton (told_error (.inr rfl) _ _)
  · exact allTold_of_nil rfl

/-- A call of the parser, with the frame that it hands on. -/
def Shaped : HandlerCall → Prop
  | .mcuReply frame _ => IsReply frame
  | _ => True

/-- A retry of the app. -/
def IsRetryCall : Call → Prop
  | .parsed (.packageRetry _) _ | .parsed (.eraseRetry _) _ => True
  | _ => False

theorem allTold_parsed (b : Bridge) {k : HandlerCall} (hk : Shaped k) (now : UInt32)
    (hr : ¬IsRetryCall (.parsed k now)) : AllTold (callHandler b k now).2 := by
  cases k with
  | appCmd appCmd frame => exact allTold_appCmd b.ble appCmd frame now
  | handshake frame =>
    simp only [callHandler, v3HandleHandshake]
    split_ifs
    · rw [← List.singleton_append]
      exact allTold_append (allTold_of_nil rfl) (allTold_singleton (told_handshake b.ee frame))
    · exact allTold_of_nil rfl
  | readWrite frame cmd =>
    simp only [callHandler, Bridge.setV3, v3HandleReadWrite]
    split_ifs
    · exact allTold_of_nil rfl
    · exact allTold_crcError frame cmd
  | mcuReply frame cmd =>
    simp only [callHandler, Bridge.setV3, v3HandleMcuReply]
    split_ifs
    · exact allTold_singleton (told_reply hk)
    · exact allTold_crcError frame cmd
  | otaStart frame => exact allTold_start b.ota frame
  | otaData frame n => exact allTold_data b.ota frame n
  | packageRetry | eraseRetry => exact absurd trivial hr

section Uart
variable (addr : List UInt8) (f : FirmwareState)

/-- The frame of a call is what the parser hands on. -/
def ShapedCall : Call → Prop
  | .parsed k _ => Shaped k
  | _ => True

/-- **A call** has notifications of their kind's length exactly when it is no retry. -/
theorem allTold_call_iff {c : Call} (hc : ShapedCall c) :
    AllTold (singleStep addr f c).2 ↔ ¬IsRetryCall c := by
  constructor
  · intro h hr
    match c with
    | .parsed (.packageRetry frame) now =>
      simp only [singleStep, callHandler, Bridge.setOta, otaPackageRetry, eepromErase_eq,
        List.nil_append] at h
      split_ifs at h
      · exact not_told_retry _ _ (h _ (List.mem_singleton_self _))
      · exact not_told_retry _ _ (h _ (List.mem_singleton_self _))
    | .parsed (.eraseRetry frame) now =>
      simp only [singleStep, callHandler, Bridge.setOta, otaEraseRetry] at h
      split_ifs at h
      · exact not_told_retry _ _ (h _ (List.mem_singleton_self _))
      · exact not_told_retry _ _ (h _ (List.mem_singleton_self _))
  · intro hr
    cases c with
    | parsed k now => exact allTold_parsed f.bridge hc now hr
    | ctrlReply cmd now => exact allTold_ctrl f.ctrl f.bridge.ee (.reply cmd now)
    | protocolData data now => exact allTold_protocol f.bridge.ble data now
    | ucCmd data =>
      refine allTold_of_nil ?_
      simp only [singleStep, rxCall, handleUcUartCmd]
      split_ifs <;> rfl
    | receiver => exact allTold_of_nil rfl
    | handshakeTick now =>
      refine allTold_of_nil ?_
      have hsend : bleSendProtocolCmd f.bridge.ble .handshakeRsp now =
          (V2.Moves.sent f.bridge.ble .handshakeRsp now, [.uart handshakeCmd]) :=
        if_neg fun h => h.1 rfl
      simp only [singleStep, firmwareStep, handshakeTimerCb, hsend]
      split_ifs <;> rfl
    | timeoutTick now => exact allTold_append (allTold_v3Timeout _ now) (allTold_timeouts now _ _)
    | mainLoop now => exact allTold_ctrl f.ctrl f.bridge.ee (.tick now)

theorem allTold_calls_iff {cs : List Call} (hcs : ∀ c ∈ cs, ShapedCall c) :
    AllTold (outs (singleStep addr) f cs) ↔ ∀ c ∈ cs, ¬IsRetryCall c := by
  induction cs generalizing f with
  | nil => simp [AllTold]
  | cons c cs ih =>
    obtain ⟨hc, hcs⟩ := List.forall_mem_cons.mp hcs
    unfold AllTold
    rw [outs_cons, notifications_append, List.forall_mem_append, List.forall_mem_cons]
    exact and_congr (allTold_call_iff addr f hc) (ih _ hcs)

/-- No notification is longer than one ATT payload, the answers to retries included. -/
theorem fits_call {c : Call} (hc : ShapedCall c) :
    ∀ n ∈ notifications (singleStep addr f c).2, n.2 ≤ 20 := by
  by_cases hr : IsRetryCall c
  · have hack : ∀ data, ∀ n ∈ notifications [.notify data otaFrameDataAckSize], n.2 ≤ 20 := by
      intro data n hn
      rw [List.mem_singleton.mp hn]
      exact (by decide : otaFrameDataAckSize ≤ 20)
    match c with
    | .parsed (.packageRetry frame) now =>
      simp only [singleStep, callHandler, Bridge.setOta, otaPackageRetry, eepromErase_eq,
        List.nil_append]
      split_ifs <;> exact hack _
    | .parsed (.eraseRetry frame) now =>
      simp only [singleStep, callHandler, Bridge.setOta, otaEraseRetry]
      split_ifs <;> exact hack _
  · exact fun n hn => ((allTold_call_iff addr f hc).mpr hr n hn).fits

theorem fits_calls {cs : List Call} (hcs : ∀ c ∈ cs, ShapedCall c) :
    ∀ n ∈ notifications (outs (singleStep addr) f cs), n.2 ≤ 20 := by
  induction cs generalizing f with
  | nil => exact fun n hn => absurd hn List.not_mem_nil
  | cons c cs ih =>
    obtain ⟨hc, hcs⟩ := List.forall_mem_cons.mp hcs
    rw [outs_cons, notifications_append]
    exact List.forall_mem_append.mpr ⟨fits_call addr f hc, ih _ hcs⟩

end Uart

/-! ### What the parser hands on -/

theorem shaped_calls (data : List UInt8) (fromApp : Bool) :
    ∀ k ∈ v3ParseBuffer data (UInt16.ofNat data.length) fromApp, Shaped k := by
  have hlen : (UInt16.ofNat data.length).toNat ≤ data.length := by
    rw [UInt16.toNat_ofNat']
    exact Nat.mod_le _ _
  refine forall_v3ParseLoop (fun _ _ => trivial) (fun offset n k hend ⟨hhead, _⟩ hpkt hk => ?_) _ _
  cases k with
  | mcuReply frame cmd =>
    obtain rfl : frame = (data.drop offset).take n := frame_of_dispatch hk
    have hcmd : byteAt data (offset + 2) = v3CmdWriteCtrl ∨
        byteAt data (offset + 2) = v3CmdReadCtrl := by
      unfold v3Dispatch at hk
      split_ifs at hk <;> first | assumption | cases hk
    have hn : n = v3FrameSizeNormal := by
      rcases hcmd with h | h <;>
      · rw [h] at hpkt
        exact (Option.some.inj hpkt).symm
    subst hn
    refine ⟨?_, ?_, ?_⟩
    · rw [byteAt_take (by decide), byteAt_drop, Nat.add_zero, hhead]
    · rw [byteAt_take (by decide), byteAt_drop]
      exact hcmd
    · rw [List.length_take, List.length_drop]
      omega
  | appCmd | handshake | readWrite | otaStart | otaData | packageRetry | eraseRetry => trivial

/-! ### Every run -/

section Run
variable (addr : List UInt8) (e : Eeprom)

/-- The calls of a run of `main`. -/
abbrev callsIn (ys : List MainEvent) : List Call :=
  callsOfRun addr (powerOn e) (handledIn addr (boot e) ys)

/-- The notifications of a run of `main`. -/
abbrev notified (ys : List MainEvent) : List (List UInt8 × ℕ) :=
  notifications (outs (mainStep addr) (boot e) ys)

theorem shaped_run (f : FirmwareState) (xs : List FirmwareEvent) :
    ∀ c ∈ callsOfRun addr f xs, ShapedCall c := by
  intro c hc
  cases c with
  | parsed k now => exact forall_parsed_run addr shaped_calls f xs k now hc
  | ctrlReply | protocolData | ucCmd | receiver | handshakeTick | timeoutTick | mainLoop => trivial

theorem outs_callsIn (ys : List MainEvent) :
    outs (mainStep addr) (boot e) ys = outs (singleStep addr) (powerOn e) (callsIn addr e ys) := by
  rw [(main_seen addr (boot e) ys).2, outs_calls]
  rfl

/-- **The notifications of a power cycle** fit into one ATT payload each; they have the length of
their kind, and come out of their concatenation again, exactly when no retry was answered. -/
theorem app_stream (ys : List MainEvent) :
    (∀ n ∈ notified addr e ys, n.2 ≤ 20) ∧
      (WellTold (notified addr e ys) ↔ ∀ c ∈ callsIn addr e ys, ¬IsRetryCall c) := by
  have hshaped := shaped_run addr (powerOn e) (handledIn addr (boot e) ys)
  have htold := allTold_calls_iff addr (powerOn e) hshaped
  have hfits := fits_calls addr (powerOn e) hshaped
  rw [← outs_callsIn addr e ys] at htold hfits
  exact ⟨hfits, (wellTold_iff_forall _).trans htold⟩

end Run

end BleHidUart.Firmware.AppStream
