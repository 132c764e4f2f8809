import BleHidUart.Firmware.Dispatch
import BleHidUart.Ota.Moves

/-!
# The download and the controller traffic

Between the frames of a download the app may send commands and requests for the controller. The
parser keeps nothing from one frame to the next, and each handler leaves the other side alone:
`traffic_separates` says that in any interleaving, and for any cut into writes of whole frames, each
side comes out as if it had been alone. The handshake `53 35 01` belongs to neither side, its reply
tells the app about the ready flag of the download.
-/

namespace BleHidUart.Firmware.Separate

open BleHidUart.Board BleHidUart.CtrlOta.Metadata BleHidUart.Lib.Run BleHidUart.Lib.Word
open BleHidUart.Ota.Handlers BleHidUart.Ota.Moves BleHidUart.Firmware.Dispatch BleHidUart.V2.Bridge
open BleHidUart.V3.Deframe BleHidUart.V3.Handlers BleHidUart.V3.Parser

/-- The frames of the download, and those for the controller. -/
inductive TrafficFrame
  | ota (f : AppFrame)
  | appHandshake (b0 b1 b2 b3 : UInt8)
  | app (a : AppCmd)
  | readWrite (f : NormalFrame)

def TrafficFrame.wire : TrafficFrame → WireFrame
  | .ota f => .ota f
  | .appHandshake b0 b1 b2 b3 => .appHandshake b0 b1 b2 b3
  | .app a => .app a
  | .readWrite f => .readWrite f

def TrafficFrame.isOta : TrafficFrame → Bool
  | .ota _ => true
  | _ => false

/-- A frame with the uptime its handler reads. -/
abbrev TimedFrame := TrafficFrame × UInt32

def TimedFrame.bytes (f : TimedFrame) : List UInt8 := f.1.wire.bytes

/-- One write of the app: whole frames. -/
structure AppWrite where
  frames : List TimedFrame
  size : (frames.flatMap TimedFrame.bytes).length ≤ 65535

def AppWrite.bytes (w : AppWrite) : List UInt8 := w.frames.flatMap TimedFrame.bytes

/-- `V3_handle_app_data` on a write, with the uptimes of its frames. -/
def writeStep (b : Bridge) (w : AppWrite) : Bridge × List Effect :=
  runCalls b (fun i => (w.frames.map Prod.snd).getD i 0)
    (v3HandleAppData w.bytes (UInt16.ofNat w.bytes.length))

/-- An effect of the download: a write to the EEPROM, or a notification with one of its commands. -/
def isOtaEffect : Effect → Bool
  | .i2c _ => true
  | .notify data _ => data.take 2 = [v3FrameHead0, v3FrameHead1] ∧
      byteAt data 2 ∈ [otaCmdStart, otaCmdFlashEraseDone, otaCmdData, otaCmdDataRetry,
      otaCmdEraseRetry]
  | _ => false

/-- What comes out of the mixed writes is what comes out of the two sides alone. -/
structure Separates (b : Bridge) (mixed ota others : List AppWrite) : Prop where
  otaContext : (final writeStep b mixed).ota = (final writeStep b ota).ota
  eeprom : (final writeStep b mixed).ee = (final writeStep b ota).ee
  otaEffects : (outs writeStep b mixed).filter isOtaEffect = outs writeStep b ota
  bridge : (final writeStep b mixed).ble = (final writeStep b others).ble
  otherEffects : (outs writeStep b mixed).filter (!isOtaEffect ·) = outs writeStep b others

/-! ### Frame by frame -/

/-- The call for a frame. -/
def frameStep (b : Bridge) (f : TimedFrame) : Bridge × List Effect :=
  callHandler b f.1.wire.call f.2

theorem run_frames (b : Bridge) (fs : List TimedFrame) :
    final callStep b (fs.map fun f => (f.1.wire.call, f.2)) = final frameStep b fs ∧
      outs callStep b (fs.map fun f => (f.1.wire.call, f.2)) = outs frameStep b fs := by
  have hone : ∀ (b : Bridge) (f : TimedFrame), frameStep b f =
      (final callStep b [(f.1.wire.call, f.2)], outs callStep b [(f.1.wire.call, f.2)]) := by
    intro b f
    simp only [final_cons, final_nil, outs_cons, outs_nil, List.append_nil]
    rfl
  rw [List.map_eq_flatMap]
  exact ⟨(final_flatMap hone b fs).symm, (outs_flatMap hone b fs).symm⟩

/-- **A write is its frames**, one call after another; the parser adds nothing. -/
theorem writeStep_eq (b : Bridge) (w : AppWrite) :
    writeStep b w = (final frameStep b w.frames, outs frameStep b w.frames) := by
  have hbytes : w.bytes = (w.frames.map (·.1.wire)).flatMap WireFrame.bytes := by
    rw [List.flatMap_map]
    rfl
  have hcalls : v3HandleAppData w.bytes (UInt16.ofNat w.bytes.length) =
      (w.frames.map (·.1.wire)).map WireFrame.call := by
    rw [hbytes]
    refine v3HandleAppData_concat _ ?_
    rw [← hbytes]
    exact w.size
  have hstamped : stamped (fun i => (w.frames.map Prod.snd).getD i 0)
      ((w.frames.map (·.1.wire)).map WireFrame.call) =
        w.frames.map fun f => (f.1.wire.call, f.2) := by
    refine List.ext_getElem (by simp [stamped]) fun i _ h => ?_
    rw [List.length_map] at h
    simp [stamped, h]
  unfold writeStep runCalls
  rw [hcalls, hstamped, (run_frames b w.frames).1, (run_frames b w.frames).2]

/-! ### What a frame leaves alone -/

theorem frameStep_ota (b : Bridge) (f : AppFrame) (now : UInt32) :
    frameStep b (.ota f, now) = b.setOta (otaHandle b.ota f) := by
  cases f <;> rfl

/-- The handler of a frame for the controller; it only sees this side of the bridge. -/
def otherHandle (s : BleState) (f : TimedFrame) : BleState × List Effect :=
  match f with
  | (.ota _, _) => (s, [])
  | (.appHandshake b0 b1 b2 b3, now) =>
    handleAppCmdAndReply s 0x01 [0x55, 0x01, b0, b1, b2, b3, 0xAA] now
  | (.app a, now) => handleAppCmdAndReply s a.code [0x55, a.code, 0xAA] now
  | (.readWrite g, now) =>
    let r := v3HandleReadWrite s.v3 g.bytes g.cmd now
    ({ s with v3 := r.1 }, r.2)

theorem frameStep_other (b : Bridge) {f : TimedFrame} (h : f.1.isOta = false) :
    frameStep b f = ({ b with ble := (otherHandle b.ble f).1 }, (otherHandle b.ble f).2) := by
  obtain ⟨f, now⟩ := f
  cases f with
  | ota => cases h
  | appHandshake | app | readWrite => rfl

theorem isOta_eq {f : TimedFrame} (h : f.1.isOta = true) : ∃ g now, f = (.ota g, now) := by
  obtain ⟨f, now⟩ := f
  cases f with
  | ota g => exact ⟨g, now, rfl⟩
  | appHandshake | app | readWrite => cases h

theorem isOtaEffect_responses (r : UInt8) :
    isOtaEffect (otaSendStartResponse r) = true ∧ isOtaEffect (otaSendFlashEraseDone r) = true ∧
      (∀ seq, isOtaEffect (otaSendDataAck seq r) = true) ∧
      isOtaEffect (otaSendPackageRetryAck r) = true ∧ isOtaEffect (otaSendEraseRetryAck r) = true :=
  ⟨rfl, rfl, fun _ => rfl, rfl, rfl⟩

theorem all_eepromWrite (addr : UInt32) (bs : List UInt8) :
    (eepromWrite addr bs).all isOtaEffect = true := by
  unfold eepromWrite
  rw [List.all_map]
  exact List.all_eq_true.mpr fun _ _ => rfl

theorem all_of_move {c c' : OtaContext} {f : AppFrame} {fx : List Effect} (h : OtaMove c f c' fx) :
    fx.all isOtaEffect = true := by
  cases h with
  | startIgnored | dataIgnored => rfl
  | startRefused | startAccepted | dataResend | dataAborted | dataContinued | dataCommitted
  | dataMismatched | packageRetried | packageRetryRefused | eraseRetried | eraseRetryRefused =>
    simp only [writeFlag, ctrlOtaSetotaReadyflag, List.all_append, List.all_cons, List.all_nil,
      all_eepromWrite, isOtaEffect_responses, Bool.and_self]

theorem all_otaHandle (c : OtaContext) (f : AppFrame) : (otaHandle c f).2.all isOtaEffect = true :=
  all_of_move (otaHandle_move c f)

theorem isOtaEffect_crcError (frame : List UInt8) (cmd : UInt8) :
    isOtaEffect (v3CrcError frame cmd) = false := by
  unfold v3CrcError
  split_ifs <;> rfl

theorem all_bleSendProtocolCmd (s : BleState) (cmd : BleCmd) (now : UInt32) :
    (bleSendProtocolCmd s cmd now).2.all (!isOtaEffect ·) = true := by
  unfold bleSendProtocolCmd
  split_ifs <;> rfl

theorem all_appCmd (s : BleState) (appCmd : UInt8) (data : List UInt8) (now : UInt32) :
    (handleAppCmdAndReply s appCmd data now).2.all (!isOtaEffect ·) = true := by
  simp only [handleAppCmdAndReply]
  split_ifs <;> first | rfl | exact all_bleSendProtocolCmd _ _ _

theorem all_otherHandle (s : BleState) (f : TimedFrame) :
    (otherHandle s f).2.all (!isOtaEffect ·) = true := by
  obtain ⟨f, now⟩ := f
  cases f with
  | ota => rfl
  | appHandshake b0 b1 b2 b3 => exact all_appCmd s _ _ now
  | app a => exact all_appCmd s _ _ now
  | readWrite g =>
    simp only [otherHandle, v3HandleReadWrite]
    split_ifs
    · rfl
    · simp only [List.all_cons, List.all_nil, isOtaEffect_crcError, Bool.not_false, Bool.and_self]

/-! ### Both sides -/

theorem filter_not_of_all {p : Effect → Bool} {fx : List Effect} (h : fx.all p = true) :
    fx.filter (!p ·) = [] := by
  rw [List.all_eq_true] at h
  exact List.filter_eq_nil_iff.mpr fun o ho => by simp [h o ho]

theorem ota_side {s t : Bridge} (h : s.ota = t.ota ∧ s.ee = t.ee) (fs : List TimedFrame) :
    ((final frameStep s fs).ota = (final frameStep t (fs.filter (·.1.isOta))).ota ∧
      (final frameStep s fs).ee = (final frameStep t (fs.filter (·.1.isOta))).ee) ∧
    (outs frameStep s fs).filter isOtaEffect =
      (outs frameStep t (fs.filter (·.1.isOta))).filter isOtaEffect := by
  have hother : ∀ (s t : Bridge) (f : TimedFrame), s.ota = t.ota ∧ s.ee = t.ee → f.1.isOta = false →
      (frameStep s f).1.ota = t.ota ∧ (frameStep s f).1.ee = t.ee := by
    intro s t f hst hf
    rw [frameStep_other s hf]
    exact hst
  have hown : ∀ (s t : Bridge) (f : TimedFrame), s.ota = t.ota ∧ s.ee = t.ee → f.1.isOta = true →
      (frameStep s f).1.ota = (frameStep t f).1.ota ∧
        (frameStep s f).1.ee = (frameStep t f).1.ee := by
    rintro s t f ⟨hota, hee⟩ hf
    obtain ⟨g, now, rfl⟩ := isOta_eq hf
    rw [frameStep_ota, frameStep_ota, hota]
    exact ⟨rfl, by simp only [Bridge.setOta, hee]⟩
  refine ⟨final_filter (R := fun s t : Bridge => s.ota = t.ota ∧ s.ee = t.ee) hother hown h fs,
    outs_filter (R := fun s t : Bridge => s.ota = t.ota ∧ s.ee = t.ee) hother hown ?_ ?_ h fs⟩
  · intro s f hf
    rw [frameStep_other s hf]
    simpa only [Bool.not_not] using filter_not_of_all (all_otherHandle s.ble f)
  · rintro s t f ⟨hota, -⟩ hf
    obtain ⟨g, now, rfl⟩ := isOta_eq hf
    rw [frameStep_ota, frameStep_ota, hota]
    rfl

theorem other_side {s t : Bridge} (h : s.ble = t.ble) (fs : List TimedFrame) :
    (final frameStep s fs).ble = (final frameStep t (fs.filter (!·.1.isOta))).ble ∧
    (outs frameStep s fs).filter (!isOtaEffect ·) =
      (outs frameStep t (fs.filter (!·.1.isOta))).filter (!isOtaEffect ·) := by
  have hother : ∀ (s t : Bridge) (f : TimedFrame), s.ble = t.ble → (!f.1.isOta) = false →
      (frameStep s f).1.ble = t.ble := by
    intro s t f hst hf
    obtain ⟨g, now, rfl⟩ := isOta_eq (f := f) (by simpa using hf)
    rw [frameStep_ota]
    exact hst
  have hown : ∀ (s t : Bridge) (f : TimedFrame), s.ble = t.ble → (!f.1.isOta) = true →
      (frameStep s f).1.ble = (frameStep t f).1.ble := by
    intro s t f hst hf
    have hno : f.1.isOta = false := by simpa using hf
    rw [frameStep_other s hno, frameStep_other t hno, hst]
  refine ⟨final_filter (R := fun s t : Bridge => s.ble = t.ble) hother hown h fs,
    outs_filter (R := fun s t : Bridge => s.ble = t.ble) hother hown ?_ ?_ h fs⟩
  · intro s f hf
    obtain ⟨g, now, rfl⟩ := isOta_eq (f := f) (by simpa using hf)
    rw [frameStep_ota]
    exact filter_not_of_all (all_otaHandle s.ota g)
  · intro s t f hst hf
    have hno : f.1.isOta = false := by simpa using hf
    rw [frameStep_other s hno, frameStep_other t hno, hst]

theorem outs_ota_alone (b : Bridge) {fs : List TimedFrame} (h : ∀ f ∈ fs, f.1.isOta = true) :
    (outs frameStep b fs).filter isOtaEffect = outs frameStep b fs := by
  refine filter_outs (fun s f hf => ?_) b
  obtain ⟨g, now, rfl⟩ := isOta_eq (h f hf)
  rw [frameStep_ota]
  exact List.all_eq_true.mp (all_otaHandle s.ota g)

theorem outs_other_alone (b : Bridge) {fs : List TimedFrame} (h : ∀ f ∈ fs, f.1.isOta = false) :
    (outs frameStep b fs).filter (!isOtaEffect ·) = outs frameStep b fs := by
  refine filter_outs (fun s f hf => ?_) b
  rw [frameStep_other s (h f hf)]
  exact List.all_eq_true.mp (all_otherHandle s.ble f)

theorem run_writes (b : Bridge) (ws : List AppWrite) :
    final writeStep b ws = final frameStep b (ws.flatMap AppWrite.frames) ∧
      outs writeStep b ws = outs frameStep b (ws.flatMap AppWrite.frames) :=
  ⟨final_flatMap writeStep_eq b ws, outs_flatMap writeStep_eq b ws⟩

/-- **The download and the controller traffic do not interfere**, in any interleaving and for any
cut into writes. -/
theorem traffic_separates (b : Bridge) (mixed ota others : List AppWrite)
    (hota : ota.flatMap AppWrite.frames = (mixed.flatMap AppWrite.frames).filter (·.1.isOta))
    (hothers : others.flatMap AppWrite.frames =
      (mixed.flatMap AppWrite.frames).filter (!·.1.isOta)) : Separates b mixed ota others := by
  obtain ⟨⟨hctx, hee⟩, hfx⟩ := ota_side (s := b) ⟨rfl, rfl⟩ (mixed.flatMap AppWrite.frames)
  obtain ⟨hble, hgx⟩ := other_side (rfl : b.ble = b.ble) (mixed.flatMap AppWrite.frames)
  rw [← hota] at hctx hee hfx
  rw [← hothers] at hble hgx
  have hpure : ∀ f ∈ ota.flatMap AppWrite.frames, f.1.isOta = true := by
    intro f hf
    rw [hota] at hf
    exact (List.mem_filter.mp hf).2
  have hpure' : ∀ f ∈ others.flatMap AppWrite.frames, f.1.isOta = false := by
    intro f hf
    rw [hothers] at hf
    simpa using (List.mem_filter.mp hf).2
  rw [outs_ota_alone b hpure] at hfx
  rw [outs_other_alone b hpure'] at hgx
  constructor
  · rw [(run_writes b mixed).1, (run_writes b ota).1, hctx]
  · rw [(run_writes b mixed).1, (run_writes b ota).1, hee]
  · rw [(run_writes b mixed).2, (run_writes b ota).2, hfx]
  · rw [(run_writes b mixed).1, (run_writes b others).1, hble]
  · rw [(run_writes b mixed).2, (run_writes b others).2, hgx]

/-- A fault query in the middle of a download, in a write with its only packet. -/
theorem traffic_separates_faultQuery :
    Separates { ee := fun _ => 0, ble := { controler := { handshakeOk := true } } }
      [⟨[(.ota (.start (startOf 4)), 10)], by decide⟩,
        ⟨[(.app .faultQuery, 20), (.ota (.data onlyPacket), 30)], by decide⟩]
      [⟨[(.ota (.start (startOf 4)), 10), (.ota (.data onlyPacket), 30)], by decide⟩]
      [⟨[(.app .faultQuery, 20)], by decide⟩] :=
  traffic_separates _ _ _ _ rfl rfl

end BleHidUart.Firmware.Separate
