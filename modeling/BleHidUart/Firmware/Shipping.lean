import BleHidUart.CtrlOta.EndToEnd
import BleHidUart.Firmware.OtaDevice

/-!
# A file goes through the program

The app downloads a file in one power cycle; the next one uploads it. In both cycles `main` runs,
with commands of the app, replies, rounds of the upload, timers and any other bytes in between; two
things are left out: a success report of the controller from the start request on, which would clear
the flag, and OTA frames of the app in the second cycle. `main_ships_download`: what the controller
is sent in the second cycle is the file that was accepted in the first one.
-/

namespace BleHidUart.Firmware.Shipping

open BleHidUart.Board BleHidUart.CtrlOta.EndToEnd BleHidUart.CtrlOta.Machine
open BleHidUart.CtrlOta.Metadata BleHidUart.CtrlOta.Transfer BleHidUart.Firmware.Joint
open BleHidUart.Firmware.Main BleHidUart.Firmware.OtaDevice BleHidUart.Lib.Run BleHidUart.Lib.Word
open BleHidUart.Ota.Handlers BleHidUart.Ota.Moves BleHidUart.Ota.Receive BleHidUart.Ota.Sender

section Uart
variable (addr : List UInt8) (e : Eeprom)

/-- The data frames since the upload last entered `SEND_REQUEST`, in a run of `main`. -/
def uploadIn (ys : List MainEvent) : Upload :=
  (final uploadStep ((ctrlOtaInit e, e), {}) ((stimuliIn addr e ys).filterMap ctrlOf)).2

/-- The controller is told of the file and, once all is acknowledged, has been sent it; a frame that
was sent again is a copy. -/
structure Ships (ys : List MainEvent) (len crc : UInt32) (image : List UInt8) : Prop where
  requests : ∀ frame ∈ uartWrites (outs (mainStep addr) (Main.boot e) ys),
    frame.take 6 = ctrlOtaHeader →
    byteAt frame 7 = ctrlCmdWriteReq → le32At frame 8 = len ∧ le32At frame 12 = crc
  image : (after addr e ys).firmware.ctrl.state = .waitComplete →
    firstPayloads (uploadIn addr e ys).frames = image ∧ Copies (uploadIn addr e ys).frames

variable {addr e}

/-- **What the EEPROM announces is sent**, as long as the app starts no other download. -/
theorem ships_of_downloaded {len crc : UInt32} {image : List UInt8} (h : Downloaded len crc image e)
    (hlen : len.toNat ≤ flagAddr) {ys : List MainEvent} (hno : NoFrame (stimuliIn addr e ys)) :
    Ships addr e ys len crc image := by
  have hrefines := refines_main addr e ys
  obtain ⟨hfinal, houts⟩ := device_ctrl (Joint.boot e) ((stimuliIn addr e ys).filterMap ctrlOf)
  rw [map_ctrlOf hno, ← hrefines.state] at hfinal
  rw [map_ctrlOf hno, ← hrefines.effects] at houts
  obtain ⟨hreq, himage⟩ := upload_of_downloaded h hlen ((stimuliIn addr e ys).filterMap ctrlOf)
  constructor
  · intro frame hframe hhead
    exact hreq frame (houts ▸ List.mem_filter.mpr ⟨mem_uartWrites.mp hframe, decide_eq_true hhead⟩)
  · intro hs
    refine himage ?_
    have hup :
        (final uploadStep ((ctrlOtaInit e, e), {}) ((stimuliIn addr e ys).filterMap ctrlOf)).1 =
          final ctrlStep (ctrlOtaInit e, e) ((stimuliIn addr e ys).filterMap ctrlOf) :=
      final_withHistory _ _
    rw [hup]
    exact (congrArg (fun s => s.1.state) hfinal).symm.trans hs

variable (addr e)

/-- The device after the stimuli `xs`, from the boot on. -/
abbrev afterStimuli (xs : List Stimulus) : Device := final deviceStep (Joint.boot e) xs

variable {addr e}

/-- The download in a run of `main`, from the stimuli `pre` on, is a download on its own. -/
theorem after_frames {ys : List MainEvent} {pre xs : List Stimulus}
    (hys : stimuliIn addr e ys = pre ++ xs) (hquiet : NoSuccess xs) :
    ((after addr e ys).firmware.bridge.ota, (after addr e ys).firmware.bridge.ee) =
      final otaStep ((afterStimuli e pre).ota, (afterStimuli e pre).ee) (xs.filterMap appOf) := by
  have hstate := (refines_main addr e ys).state
  rw [hys, final_append] at hstate
  rw [← device_app (afterStimuli e pre) hquiet, ← hstate]
  rfl

/-- **Download, then upload.** Whatever came before, the last frames of the app in the first cycle
are an accepted start request and data packets; the last one that is accepted commits, and as many
bytes as were announced are accepted. From the start request on the controller reports no success;
in the second cycle the app sends no OTA frame. Then the controller is told of this file, and sent
it. -/
theorem main_ships_download {ys zs : List MainEvent} {pre xs : List Stimulus} {f : StartFrame}
    {fs : List DataFrame} (hys : stimuliIn addr e ys = pre ++ xs) (hquiet : NoSuccess xs)
    (hxs : xs.filterMap appOf = .start f :: fs.map .data)
    (ho : Opens (afterStimuli e pre).ota f)
    (hend : EndsWithCommit (acceptLog (otaHandle (afterStimuli e pre).ota (.start f)).1 fs))
    (hlen : (startLen f).toNat ≤
      (contents (acceptLog (otaHandle (afterStimuli e pre).ota (.start f)).1 fs)).length)
    (hno : NoFrame (stimuliIn addr (after addr e ys).firmware.bridge.ee zs)) :
    Ships addr (after addr e ys).firmware.bridge.ee zs (startLen f) (startCrc f)
      ((contents (acceptLog (otaHandle (afterStimuli e pre).ota (.start f)).1 fs)).take
        (startLen f).toNat) := by
  have hbound : (startLen f).toNat ≤ flagAddr := UInt32.le_iff_toNat_le.mp ho.le
  refine ships_of_downloaded ?_ hbound hno
  have hee : (after addr e ys).firmware.bridge.ee =
      (final otaStep ((afterStimuli e pre).ota, (afterStimuli e pre).ee)
        (.start f :: fs.map .data)).2 := by
    rw [← hxs]
    exact congrArg Prod.snd (after_frames hys hquiet)
  rw [hee]
  have hstart : Receiving (startLen f) (startCrc f) []
      (otaStep ((afterStimuli e pre).ota, (afterStimuli e pre).ee) (.start f)).1 :=
    receiving_start ho
  exact download_complete fs hstart hend hlen

/-- The app writes the bytes. -/
def writeEvent (bytes : List UInt8) : MainEvent := .event (.appData bytes fun _ => 10)

/-- The controller replies to the upload. -/
def replyEvent (cmd : UInt8) (now : UInt32) : MainEvent :=
  .event (.uart (.timeout [0xEB, 0x90, 0xEB, 0x90, 0xEB, 0x90, 0x08, cmd]) fun _ => now)

/-- A packet, a damaged one, and one that is longer than what a file of six bytes still lacks. -/
def shortPackets : List DataFrame :=
  [packetOf 0 0x01 ⟨[11, 12, 13, 14], by decide⟩,
    packetWith 0x00 1 0x01 ⟨[15, 16, 17, 18], by decide⟩,
    packetOf 1 0x00 ⟨[15, 16, 17, 18], by decide⟩]

/-- A download with a fault query of the app and a reply of the controller to nothing; the two last
packets are in one write. -/
def shortDownload : List MainEvent :=
  [writeEvent (startOfFile [11, 12, 13, 14, 15, 16]).bytes,
    writeEvent ([0x55, 0x05, 0xAA] ++ (packetOf 0 0x01 ⟨[11, 12, 13, 14], by decide⟩).bytes),
    .event (.mainLoop 12), replyEvent 0x0B 15,
    writeEvent ((packetWith 0x00 1 0x01 ⟨[15, 16, 17, 18], by decide⟩).bytes ++
      (packetOf 1 0x00 ⟨[15, 16, 17, 18], by decide⟩).bytes)]

/-- The upload, with a status query of the app and an ACK that comes late. -/
def shortUpload : List MainEvent :=
  [.event (.mainLoop 40), replyEvent 0x17 50, .event (.mainLoop 60), writeEvent [0x55, 0x02, 0xAA],
    .event (.mainLoop 600), .event (.mainLoop 605), replyEvent 0x0B 610]

theorem noSuccess_shortDownload :
    NoSuccess (.app (.start (startOfFile [11, 12, 13, 14, 15, 16])) ::
      .app (.data (packetOf 0 0x01 ⟨[11, 12, 13, 14], by decide⟩)) :: .ctrl (.reply 0x0B 15) ::
        shortPackets.tail.map fun f => .app (.data f)) := by
  intro i hi
  simp only [List.mem_cons, reduceCtorEq, false_or, Stimulus.ctrl.injEq, List.mem_map, and_false,
    exists_false, or_false] at hi
  rw [hi]
  decide

theorem main_ships_download_shortPackets :
    firstPayloads
        (uploadIn [] (after [] (fun _ => 0) shortDownload).firmware.bridge.ee shortUpload).frames =
      [11, 12, 13, 14, 15, 16] :=
  ((@main_ships_download [] (fun _ => 0) shortDownload shortUpload [] _
    (startOfFile [11, 12, 13, 14, 15, 16]) shortPackets rfl noSuccess_shortDownload rfl (by decide)
    (by decide) (by decide)
    (noFrame_map [.tick 40, .reply 0x17 50, .tick 60, .tick 600, .tick 605, .reply 0x0B 610])).image
    (by decide +kernel)).1

end Uart
end BleHidUart.Firmware.Shipping
