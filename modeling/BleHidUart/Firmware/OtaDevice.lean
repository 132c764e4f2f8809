import BleHidUart.Firmware.AppStream
import BleHidUart.Firmware.Joint
import BleHidUart.Firmware.Separate
import BleHidUart.Firmware.Traffic

/-!
# The two OTA sides in a run of `main`

`Joint` has the download, the upload and the EEPROM alone, and takes well-formed frames, replies and
rounds of the loop in any order. In the program they sit under the parser, the UART receiver and the
loop of `main`, next to the bridge.

* `main_refines`: a run of `main` from power-on is, for these two sides, a run of the device, with
  the same states and the same effects, whatever bytes come in. Hence the invariants of both sides
  hold in every state of every power cycle, and no page write leaves the image area and the metadata
  record.
-/

namespace BleHidUart.Firmware.OtaDevice

open BleHidUart.Board BleHidUart.CtrlOta.Machine BleHidUart.CtrlOta.Metadata
open BleHidUart.CtrlOta.Moves BleHidUart.Firmware.AppStream BleHidUart.Firmware.Calls
open BleHidUart.Firmware.Dispatch BleHidUart.Firmware.Joint BleHidUart.Firmware.Machine
open BleHidUart.Firmware.Main BleHidUart.Firmware.Separate BleHidUart.Lib.Memory BleHidUart.Lib.Run
open BleHidUart.Lib.Word BleHidUart.Ota.Handlers BleHidUart.Ota.Moves BleHidUart.Ota.Session
open BleHidUart.V2.Bridge BleHidUart.V3.Bridge BleHidUart.V3.Deframe BleHidUart.V3.Handlers
open BleHidUart.V3.Parser

/-! ### The calls for the device -/

/-- The bytes as a frame, if its head and its length are right. -/
def frameOf (cmd : UInt8) (lo hi : ℕ) (bytes : List UInt8) : Option (OtaFrame cmd lo hi) :=
  if h : bytes.take 4 = [v3FrameHead0, v3FrameHead1, cmd, UInt8.ofNat bytes.length] ∧
      lo ≤ bytes.length ∧ bytes.length ≤ hi then
    some ⟨bytes, h.1, h.2⟩
  else none

theorem frameOf_bytes {cmd : UInt8} {lo hi : ℕ} (f : OtaFrame cmd lo hi) :
    frameOf cmd lo hi f.bytes = some f :=
  dif_pos ⟨f.head, f.size⟩

/-- What a call is for the device. -/
def stimulusOf : Call → Option Stimulus
  | .parsed (.otaStart frame) _ => (frameOf _ _ _ frame).map fun f => .app (.start f)
  | .parsed (.otaData frame _) _ => (frameOf _ _ _ frame).map fun f => .app (.data f)
  | .parsed (.packageRetry frame) _ => (frameOf _ _ _ frame).map fun f => .app (.packageRetry f)
  | .parsed (.eraseRetry frame) _ => (frameOf _ _ _ frame).map fun f => .app (.eraseRetry f)
  | .ctrlReply cmd now => some (.ctrl (.reply cmd now))
  | .mainLoop now => some (.ctrl (.tick now))
  | _ => none

/-- The two sides in the state of the firmware. -/
def deviceOf (f : FirmwareState) : Device := ⟨f.bridge.ota, f.ctrl, f.bridge.ee⟩

/-- The commands of the notifications of both sides. -/
def otaCmds : List UInt8 :=
  [otaCmdStart, otaCmdFlashEraseDone, otaCmdData, otaCmdDataRetry, otaCmdEraseRetry,
    ctrlOtaV3Progress, ctrlOtaV3Result]

/-- An effect of the device: a page write, a notification with one of its commands, or a frame of
the upload. -/
def isDeviceEffect : Effect → Bool
  | .i2c _ => true
  | .notify data _ => data.take 2 = [v3FrameHead0, v3FrameHead1] ∧ byteAt data 2 ∈ otaCmds
  | .uart data => data.take 6 = ctrlOtaHeader
  | .led _ => false

/-! ### What the parser hands to the download -/

/-- The frame is one of the four of the download, or the call is none of the download. -/
def Framed : HandlerCall → Prop
  | .otaStart frame => ∃ f : StartFrame, f.bytes = frame
  | .otaData frame n => ∃ f : DataFrame, f.bytes = frame ∧ n = UInt16.ofNat frame.length
  | .packageRetry frame => ∃ f : PackageRetryFrame, f.bytes = frame
  | .eraseRetry frame => ∃ f : EraseRetryFrame, f.bytes = frame
  | _ => True

theorem pktLen_ota {cmd len : UInt8} {n : ℕ} (h : v3PktLen cmd len = some n) :
    (cmd = otaCmdStart → len.toNat = n ∧ n = 12) ∧
      (cmd = otaCmdData → len.toNat = n ∧ 8 ≤ n ∧ n ≤ 208) ∧
      (cmd = otaCmdDataRetry ∨ cmd = otaCmdEraseRetry → len.toNat = n ∧ n = 5) := by
  refine ⟨?_, ?_, ?_⟩
  · rintro rfl
    have hpkt : v3PktLen otaCmdStart len =
        if len.toNat ≠ otaFrameStartReqSize then none else some len.toNat := rfl
    rw [hpkt] at h
    split_ifs at h with hsize
    exact ⟨Option.some.inj h, (Option.some.inj h).symm.trans (not_not.mp hsize)⟩
  · rintro rfl
    have hpkt : v3PktLen otaCmdData len =
        if len.toUInt16 < otaFrameDataMinSize ∨ otaFrameDataMaxSize < len.toUInt16 then none
        else some len.toNat := rfl
    rw [hpkt] at h
    split_ifs at h with hrange
    rw [not_or, UInt16.not_lt, UInt16.not_lt, UInt16.le_iff_toNat_le, UInt16.le_iff_toNat_le,
      UInt8.toNat_toUInt16, Option.some.inj h] at hrange
    exact ⟨Option.some.inj h, hrange⟩
  · intro hcmd
    have hpkt : v3PktLen cmd len =
        if len.toNat ≠ otaFrameFlashEraseRspSize then none else some len.toNat := by
      rcases hcmd with rfl | rfl <;> rfl
    rw [hpkt] at h
    split_ifs at h with hsize
    exact ⟨Option.some.inj h, (Option.some.inj h).symm.trans (not_not.mp hsize)⟩

theorem framed_calls (data : List UInt8) (fromApp : Bool) :
    ∀ k ∈ v3ParseBuffer data (UInt16.ofNat data.length) fromApp, Framed k := by
  have hlen : (UInt16.ofNat data.length).toNat ≤ data.length := by
    rw [UInt16.toNat_ofNat']
    exact Nat.mod_le _ _
  refine forall_v3ParseLoop (fun _ _ => trivial) (fun offset n k hend ⟨h0, h1⟩ hpkt hk => ?_) _ _
  have hsize : ((data.drop offset).take n).length = n := by
    rw [List.length_take, List.length_drop]
    omega
  -- the frame with the command that the parser has seen
  have hframe : ∀ (cmd : UInt8) (lo hi : ℕ), byteAt data (offset + 2) = cmd →
      (byteAt data (offset + 3)).toNat = n → lo ≤ n ∧ n ≤ hi → 4 ≤ n →
      ∃ f : OtaFrame cmd lo hi, f.bytes = (data.drop offset).take n := by
    intro cmd lo hi hcmd hthree hrange hfour
    refine ⟨⟨_, ?_, by rwa [hsize]⟩, rfl⟩
    have hbytes : ∀ i, byteAt (data.drop offset) i = byteAt data (offset + i) :=
      byteAt_drop data offset
    obtain ⟨a, b, c, d, rest, hdrop⟩ : ∃ a b c d rest,
      data.drop offset = a :: b :: c :: d :: rest := by
      have hl : 4 ≤ (data.drop offset).length := by rw [List.length_drop]; omega
      match data.drop offset, hl with
      | a :: b :: c :: d :: rest, _ => exact ⟨a, b, c, d, rest, rfl⟩
    rw [hsize, List.take_take, min_eq_left hfour, hdrop]
    have ha : a = byteAt data (offset + 0) := by rw [← hbytes 0, hdrop]; rfl
    have hb : b = byteAt data (offset + 1) := by rw [← hbytes 1, hdrop]; rfl
    have hc : c = byteAt data (offset + 2) := by rw [← hbytes 2, hdrop]; rfl
    have hd : d = byteAt data (offset + 3) := by rw [← hbytes 3, hdrop]; rfl
    rw [ha, hb, hc, hd, Nat.add_zero, h0, h1, hcmd, ← hthree, UInt8.ofNat_toNat]
    rfl
  obtain ⟨hstart, hdata, hretry⟩ := pktLen_ota hpkt
  unfold v3Dispatch at hk
  split_ifs at hk with c1 c2 c3 c4 c5 c6 c7 c8
  · obtain rfl := Option.some.inj hk
    trivial
  · obtain rfl := Option.some.inj hk
    trivial
  · obtain rfl := Option.some.inj hk
    trivial
  · obtain rfl := Option.some.inj hk
    obtain ⟨hb, hn⟩ := hstart c5.1
    exact hframe _ _ _ c5.1 hb (by omega) (by omega)
  · obtain rfl := Option.some.inj hk
    obtain ⟨hb, hn⟩ := hdata c6.1
    obtain ⟨f, hf⟩ := hframe otaCmdData 8 208 c6.1 hb hn (by omega)
    exact ⟨f, hf, by rw [hsize]⟩
  · obtain rfl := Option.some.inj hk
    obtain ⟨hb, hn⟩ := hretry (.inl c7.1)
    exact hframe _ _ _ c7.1 hb (by omega) (by omega)
  · obtain rfl := Option.some.inj hk
    obtain ⟨hb, hn⟩ := hretry (.inr c8.1)
    exact hframe _ _ _ c8.1 hb (by omega) (by omega)

/-! ### What the V2 bridge does -/

/-- An effect of the V2 bridge: a command, an answer or a lamp; or the answer with the address. -/
def isV2Effect : Effect → Bool
  | .uart data => byteAt data 0 = 0x5A ∨ byteAt data 0 = 0xAA
  | .notify data _ => byteAt data 0 = 0xAA
  | .led _ => true
  | .i2c _ => false

/-- All of the effects are. -/
abbrev V2Only (fx : List Effect) : Prop := ∀ o ∈ fx, isV2Effect o = true

theorem v2Only_nil : V2Only [] := fun _ ho => absurd ho List.not_mem_nil

theorem v2Only_singleton {o : Effect} (h : isV2Effect o = true) : V2Only [o] := fun _ ho => by
  rwa [List.mem_singleton.mp ho]

theorem v2Only_append {fx gx : List Effect} (h : V2Only fx) (h' : V2Only gx) : V2Only (fx ++ gx) :=
  List.forall_mem_append.mpr ⟨h, h'⟩

theorem v2Only_bleSend (s : BleState) (cmd : BleCmd) (now : UInt32) :
    V2Only (bleSendProtocolCmd s cmd now).2 := by
  unfold bleSendProtocolCmd
  split_ifs
  · exact v2Only_nil
  · cases cmd <;> exact v2Only_singleton rfl

theorem v2Only_appCmd (s : BleState) (appCmd : UInt8) (data : List UInt8) (now : UInt32) :
    V2Only (handleAppCmdAndReply s appCmd data now).2 := by
  simp only [handleAppCmdAndReply]
  split_ifs
  all_goals first
    | exact v2Only_nil
    | exact v2Only_singleton rfl
    | exact v2Only_bleSend _ _ _

theorem v2Only_decode (s : BleState) (t : Option BleCmd) (b0 b1 : UInt8) :
    V2Only (decodeReply s t b0 b1).2 := by
  refine List.all_eq_true.mp ?_
  unfold decodeReply
  rcases t with _ | c
  · rfl
  · cases c <;> dsimp only <;> split_ifs <;> rfl

theorem v2Only_protocol (s : BleState) (data : List UInt8) (now : UInt32) :
    V2Only (handleProtocolData s data now).2 := by
  simp only [handleProtocolData, handleMcuReplydata]
  split_ifs
  · exact v2Only_nil
  · exact v2Only_nil
  · split
    · exact v2Only_decode _ _ _ _
    · exact v2Only_singleton rfl

theorem v2Only_timeouts (now : UInt32) :
    ∀ (cs : List BleCmd) (s : BleState), V2Only (checkTimeouts now cs s).2
  | [], _ => v2Only_nil
  | c :: cs, s => by
    have hone : V2Only (timeoutOutcome c) := List.all_eq_true.mp (by cases c <;> rfl)
    simp only [checkTimeouts]
    split_ifs
    · exact v2Only_append hone (v2Only_timeouts now cs _)
    · exact v2Only_timeouts now cs s

theorem v2Only_handshakeTick (addr : List UInt8) (f : FirmwareState) (now : UInt32) :
    V2Only (firmwareStep addr f (.handshakeTick now)).2 := by
  simp only [firmwareStep, handshakeTimerCb]
  split_ifs
  all_goals first
    | exact v2Only_nil
    | exact v2Only_singleton rfl

theorem v2Only_address (addr data : List UInt8) : V2Only (handleUcUartCmd addr data) := by
  unfold handleUcUartCmd
  split_ifs
  · exact v2Only_singleton rfl
  · exact v2Only_nil

/-! ### What the other handlers do -/

/-- None of the effects is one of the device. -/
abbrev Quiet (fx : List Effect) : Prop := ∀ o ∈ fx, isDeviceEffect o = false

theorem quiet_nil : Quiet [] := fun _ ho => absurd ho List.not_mem_nil

theorem quiet_singleton {o : Effect} (h : isDeviceEffect o = false) : Quiet [o] := fun _ ho => by
  rwa [List.mem_singleton.mp ho]

theorem quiet_append {fx gx : List Effect} (h : Quiet fx) (h' : Quiet gx) : Quiet (fx ++ gx) :=
  List.forall_mem_append.mpr ⟨h, h'⟩

theorem quiet_v2 {fx : List Effect} (h : V2Only fx) : Quiet fx := by
  intro o ho
  have hv2 := h o ho
  cases o with
  | i2c => cases hv2
  | led => rfl
  | uart data =>
    refine decide_eq_false fun heq => ?_
    have hzero := congrArg (byteAt · 0) heq
    rw [byteAt_take (by decide)] at hzero
    rcases of_decide_eq_true hv2 with h0 | h0
    all_goals
    · rw [h0] at hzero
      exact absurd hzero (by decide)
  | notify data len =>
    refine decide_eq_false fun heq => ?_
    have hzero := congrArg (byteAt · 0) heq.1
    rw [byteAt_take (by decide), of_decide_eq_true hv2] at hzero
    exact absurd hzero (by decide)

theorem quiet_crcError (frame : List UInt8) (cmd : UInt8) : Quiet [v3CrcError frame cmd] := by
  refine quiet_singleton ?_
  unfold v3CrcError
  split_ifs <;> rfl

theorem quiet_forwarded {frame : List UInt8} (h : byteAt frame 0 = v3FrameHead0) :
    isDeviceEffect (.uart (frame.take v3FrameSizeNormal)) = false := by
  refine decide_eq_false fun heq => ?_
  have hzero : byteAt ((frame.take v3FrameSizeNormal).take 6) 0 = byteAt ctrlOtaHeader 0 :=
    congrArg (byteAt · 0) heq
  rw [byteAt_take (by decide), byteAt_take (by decide), h] at hzero
  exact absurd hzero (by decide)

theorem quiet_reply {frame : List UInt8} (h : IsReply frame) :
    isDeviceEffect (.notify (frame.take v3FrameSizeNormal) v3FrameSizeNormal) = false := by
  refine decide_eq_false fun heq => ?_
  have hcmd := heq.2
  rw [byteAt_take (by decide)] at hcmd
  rcases h.2.1 with h2 | h2 <;>
  · rw [h2] at hcmd
    exact absurd hcmd (by decide)

theorem quiet_v3Timeout (s : V3BridgeState) (now : UInt32) : Quiet (v3TimeoutCheck s now).2 := by
  simp only [v3TimeoutCheck]
  split_ifs
  · exact quiet_nil
  · exact quiet_singleton rfl
  · exact quiet_singleton rfl
  · exact quiet_nil

/-! ### What the device does -/

theorem isDeviceEffect_of_isOtaEffect {o : Effect} (h : isOtaEffect o = true) :
    isDeviceEffect o = true := by
  cases o with
  | i2c => rfl
  | notify data len =>
    obtain ⟨htake, hcmd⟩ := of_decide_eq_true h
    exact decide_eq_true ⟨htake, List.mem_append_left [ctrlOtaV3Progress, ctrlOtaV3Result] hcmd⟩
  | uart | led => cases h

theorem all_ctrlHandle (g : CtrlOtaCtx) (e : Eeprom) (i : CtrlEvent) :
    ∀ o ∈ (ctrlHandle g e i).2, isDeviceEffect o = true := by
  have hmove := ctrlHandle_move g e i
  have hone : ∀ {o p : Effect}, isDeviceEffect p = true → o ∈ [p] → isDeviceEffect o = true :=
    fun hp ho => by
    rwa [List.mem_singleton.mp ho]
  generalize (ctrlHandle g e i).1 = g', (ctrlHandle g e i).2 = fx at hmove ⊢
  intro o ho
  cases hmove with
  | stay | finish | timeout | restart | confirm | erased => cases ho
  | request | send | failed | crcFail | refused => exact hone rfl ho
  | ackLast | ackMore => exact hone rfl ho
  | success now =>
    rcases List.mem_cons.mp ho with rfl | ho
    · rfl
    · exact isDeviceEffect_of_isOtaEffect (List.all_eq_true.mp (all_eepromWrite _ _) o ho)

/-- **All that the device does is told from the rest.** -/
theorem effects_device (d : Device) (x : Stimulus) :
    ∀ o ∈ (deviceStep d x).2, isDeviceEffect o = true := by
  cases x with
  | app f =>
    exact fun o ho => isDeviceEffect_of_isOtaEffect
      (List.all_eq_true.mp (all_otaHandle d.ota f) o ho)
  | ctrl i => exact all_ctrlHandle d.ctrl d.ee i

/-! ### The refinement -/

section Uart
variable (addr : List UInt8)

/-- What a call does to the device, and which of its effects are the device's. -/
structure Simulates (f : FirmwareState) (c : Call) : Prop where
  state : deviceOf (singleStep addr f c).1 = final deviceStep (deviceOf f) (stimulusOf c).toList
  effects : (singleStep addr f c).2.filter isDeviceEffect =
    outs deviceStep (deviceOf f) (stimulusOf c).toList

variable {addr} {f : FirmwareState} {c : Call}

theorem simulates_stimulus {x : Stimulus} (hx : stimulusOf c = some x)
    (h : deviceOf (singleStep addr f c).1 = (deviceStep (deviceOf f) x).1)
    (hfx : (singleStep addr f c).2 = (deviceStep (deviceOf f) x).2) : Simulates addr f c := by
  constructor
  · rw [hx]
    exact h
  · rw [hx, hfx]
    exact (List.filter_eq_self.mpr (effects_device _ x)).trans (List.append_nil _).symm

theorem simulates_other (hx : stimulusOf c = none)
    (h : deviceOf (singleStep addr f c).1 = deviceOf f) (hfx : Quiet (singleStep addr f c).2) :
    Simulates addr f c := by
  constructor
  · rw [hx]
    exact h
  · rw [hx]
    exact List.filter_eq_nil_iff.mpr fun o ho => by simp [hfx o ho]

/-- The call is one that the parser or the receiver can make. -/
def FramedCall : Call → Prop
  | .parsed k _ => Framed k ∧ Shaped k ∧ Channel.Headed k
  | _ => True

theorem simulates_parsed {k : HandlerCall} {now : UInt32} (hk : FramedCall (.parsed k now)) :
    Simulates addr f (.parsed k now) := by
  obtain ⟨hframed, hshaped, hheaded⟩ := hk
  cases k with
  | appCmd appCmd frame =>
    exact simulates_other rfl rfl (quiet_v2 (v2Only_appCmd _ appCmd frame now))
  | handshake frame =>
    refine simulates_other rfl rfl ?_
    simp only [singleStep, callHandler, v3HandleHandshake]
    split_ifs
    · exact quiet_append (quiet_singleton rfl) (quiet_singleton rfl)
    · exact quiet_nil
  | readWrite frame cmd =>
    refine simulates_other rfl rfl ?_
    simp only [singleStep, callHandler, Bridge.setV3, v3HandleReadWrite]
    split_ifs
    · exact quiet_singleton (quiet_forwarded hheaded)
    · exact quiet_crcError frame cmd
  | mcuReply frame cmd =>
    refine simulates_other rfl rfl ?_
    simp only [singleStep, callHandler, Bridge.setV3, v3HandleMcuReply]
    split_ifs
    · exact quiet_singleton (quiet_reply hshaped)
    · exact quiet_crcError frame cmd
  | otaStart frame =>
    obtain ⟨g, rfl⟩ := hframed
    exact simulates_stimulus (x := .app (.start g)) (by rw [stimulusOf, frameOf_bytes]; rfl) rfl rfl
  | otaData frame n =>
    obtain ⟨g, rfl, rfl⟩ := hframed
    exact simulates_stimulus (x := .app (.data g)) (by rw [stimulusOf, frameOf_bytes]; rfl) rfl rfl
  | packageRetry frame =>
    obtain ⟨g, rfl⟩ := hframed
    exact simulates_stimulus (x := .app (.packageRetry g))
      (by rw [stimulusOf, frameOf_bytes]; rfl) rfl rfl
  | eraseRetry frame =>
    obtain ⟨g, rfl⟩ := hframed
    exact simulates_stimulus (x := .app (.eraseRetry g))
      (by rw [stimulusOf, frameOf_bytes]; rfl) rfl rfl

/-- **A call** does to the device what its stimulus does, or nothing. -/
theorem simulates_call (hc : FramedCall c) : Simulates addr f c := by
  cases c with
  | parsed k now => exact simulates_parsed hc
  | ctrlReply cmd now => exact simulates_stimulus (x := .ctrl (.reply cmd now)) rfl rfl rfl
  | mainLoop now => exact simulates_stimulus (x := .ctrl (.tick now)) rfl rfl rfl
  | protocolData data now => exact simulates_other rfl rfl (quiet_v2 (v2Only_protocol _ data now))
  | ucCmd data => exact simulates_other rfl rfl (quiet_v2 (v2Only_address addr data))
  | receiver event => exact simulates_other rfl rfl quiet_nil
  | timeoutTick now =>
    exact simulates_other rfl rfl
      (quiet_append (quiet_v3Timeout _ now) (quiet_v2 (v2Only_timeouts now _ _)))
  | handshakeTick now =>
    refine simulates_other rfl ?_ (quiet_v2 (v2Only_handshakeTick addr f now))
    simp only [singleStep, firmwareStep, handshakeTimerCb]
    split_ifs <;> rfl

variable (addr) in
theorem simulates_calls {cs : List Call} (hcs : ∀ c ∈ cs, FramedCall c) (f : FirmwareState) :
    deviceOf (final (singleStep addr) f cs) =
        final deviceStep (deviceOf f) (cs.filterMap stimulusOf) ∧
      (outs (singleStep addr) f cs).filter isDeviceEffect =
        outs deviceStep (deviceOf f) (cs.filterMap stimulusOf) := by
  induction cs generalizing f with
  | nil => exact ⟨rfl, rfl⟩
  | cons c cs ih =>
    obtain ⟨hc, hcs⟩ := List.forall_mem_cons.mp hcs
    obtain ⟨hstate, heffects⟩ : Simulates addr f c := simulates_call hc
    obtain ⟨hfinal, houts⟩ := ih hcs (singleStep addr f c).1
    have hcons : (c :: cs).filterMap stimulusOf =
        (stimulusOf c).toList ++ cs.filterMap stimulusOf := by
      rw [List.filterMap_cons]
      cases stimulusOf c <;> rfl
    rw [hcons, final_append, outs_append, ← hstate, ← hfinal, ← houts, ← heffects]
    exact ⟨rfl, List.filter_append ..⟩

variable (addr) (m : MainState) (e : Eeprom)

/-- What a run of `main` from `m` on is for the device. -/
def stimuliFrom (ys : List MainEvent) : List Stimulus :=
  (callsOfRun addr m.firmware (handledIn addr m ys)).filterMap stimulusOf

/-- What a run of `main` is for the device. -/
def stimuliIn (ys : List MainEvent) : List Stimulus := (callsIn addr e ys).filterMap stimulusOf

theorem framed_run (f : FirmwareState) (xs : List FirmwareEvent) :
    ∀ c ∈ callsOfRun addr f xs, FramedCall c := by
  intro c hc
  cases c with
  | parsed k now =>
    refine forall_parsed_run addr (Q := fun k => FramedCall (.parsed k now))
      (fun data fromApp k hk => ?_) f xs k now hc
    exact ⟨framed_calls data fromApp k hk, shaped_calls data fromApp k hk,
      Channel.headed_calls data _ fromApp k hk⟩
  | ctrlReply | protocolData | ucCmd | receiver | handshakeTick | timeoutTick | mainLoop => trivial

/-- From any state of `main` on the two sides go through a run of the device. -/
theorem device_main (ys : List MainEvent) :
    deviceOf (final (mainStep addr) m ys).firmware =
        final deviceStep (deviceOf m.firmware) (stimuliFrom addr m ys) ∧
      (outs (mainStep addr) m ys).filter isDeviceEffect =
        outs deviceStep (deviceOf m.firmware) (stimuliFrom addr m ys) := by
  rw [(main_seen addr m ys).1, (main_seen addr m ys).2, ← final_calls, ← outs_calls]
  exact simulates_calls addr (framed_run addr m.firmware (handledIn addr m ys)) m.firmware

/-- The two sides in a run of `main` are a run of the device, with the same effects. -/
structure Refines (ys : List MainEvent) : Prop where
  state : deviceOf (after addr e ys).firmware =
    final deviceStep (Joint.boot e) (stimuliIn addr e ys)
  effects : (outs (mainStep addr) (Main.boot e) ys).filter isDeviceEffect =
    outs deviceStep (Joint.boot e) (stimuliIn addr e ys)

/-- Under any traffic the download, the upload and the EEPROM go through a run of their own, and do
nothing that this run does not. -/
theorem refines_main (ys : List MainEvent) : Refines addr e ys :=
  ⟨(device_main addr (Main.boot e) ys).1, (device_main addr (Main.boot e) ys).2⟩

/-! ### Every power cycle -/

/-- The EEPROM after power cycles, each a run of `main` of any length. -/
def afterCycles (runs : List (List MainEvent)) : Eeprom :=
  runs.foldl (fun e ys => (after addr e ys).firmware.bridge.ee) e

theorem untouched_handle {d : Device} (h : DeviceInv d) (x : Stimulus) {a : ℕ}
    (ha : flagAddr + 9 ≤ a) : (handle d x).ee a = d.ee a := by
  cases x with
  | app f =>
    have hwrote := wrote_of_move (otaHandle_move d.ota f) h.ota
    show applyEffects d.ee (otaHandle d.ota f).2 a = d.ee a
    generalize (otaHandle d.ota f).1 = c', applyEffects d.ee (otaHandle d.ota f).2 = e' at hwrote ⊢
    cases hwrote with
    | nothing => rfl
    | cleared => exact store_of_ge (by simp only [List.length_singleton]; omega)
    | packet f =>
      have hle := received_add_stored_le h.ota f
      have hlen := h.ota.length_le
      exact store_of_ge (by omega)
    | committed f =>
      have hle := received_add_stored_le h.ota f
      have hlen := h.ota.length_le
      have hrecord : (readyRecord d.ota.fileLength d.ota.fileCrc).length = 9 := rfl
      rw [store_of_ge (by omega), store_of_ge (by omega)]
  | ctrl i =>
    show applyEffects d.ee (ctrlHandle d.ctrl d.ee i).2 a = d.ee a
    rw [applyEffects_move (ctrlHandle_move d.ctrl d.ee i)]
    split_ifs
    · exact store_of_ge (by simp only [List.length_singleton]; omega)
    · rfl

/-- The device keeps its invariants, and the cells behind the metadata. -/
theorem untouched_run {e : Eeprom} {a : ℕ} (ha : flagAddr + 9 ≤ a) (xs : List Stimulus) :
    DeviceInv (final deviceStep (Joint.boot e) xs) ∧
      (final deviceStep (Joint.boot e) xs).ee a = e a := by
  have hstep : ∀ (d : Device) (x : Stimulus), DeviceInv d ∧ d.ee a = e a →
      DeviceInv (deviceStep d x).1 ∧ (deviceStep d x).1.ee a = e a := fun d x h =>
    ⟨deviceInv_step d x h.1, (untouched_handle h.1 x ha).trans h.2⟩
  exact final_invariant hstep ⟨deviceInv_boot e, rfl⟩ xs

theorem untouched_main {e : Eeprom} {a : ℕ} (ha : flagAddr + 9 ≤ a) (ys : List MainEvent) :
    (after addr e ys).firmware.bridge.ee a = e a := by
  have h := (untouched_run (e := e) ha (stimuliIn addr e ys)).2
  rw [← (refines_main addr e ys).state] at h
  exact h

/-- **In every power cycle `main` refines the device**; hence the invariants of both sides hold in
every state, and no cell behind the metadata record has ever been written. -/
theorem main_refines (runs : List (List MainEvent)) (ys : List MainEvent) :
    Refines addr (afterCycles addr e runs) ys ∧
      DeviceInv (deviceOf (after addr (afterCycles addr e runs) ys).firmware) ∧
      ∀ a, flagAddr + 9 ≤ a →
        (after addr (afterCycles addr e runs) ys).firmware.bridge.ee a = e a := by
  refine ⟨refines_main addr _ ys, ?_, ?_⟩
  · rw [(refines_main addr (afterCycles addr e runs) ys).state]
    exact final_invariant deviceInv_step (deviceInv_boot _) _
  · intro a ha
    rw [untouched_main addr ha]
    unfold afterCycles
    induction runs generalizing e with
    | nil => rfl
    | cons zs runs ih => exact (ih _).trans (untouched_main addr ha zs)

end Uart

end BleHidUart.Firmware.OtaDevice
