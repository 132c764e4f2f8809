import BleHidUart.CtrlOta.Transfer
import BleHidUart.Ota.Sender

/-!
# From the download to the upload

The app side leaves the announced file in the EEPROM (`download_complete`), the boot reads its
length and its CRC back from the metadata page, and an upload that reaches `WAIT_COMPLETE` has sent
the image area from `0` on (`UploadInv`). Together: what is uploaded is what was downloaded.
-/

namespace BleHidUart.CtrlOta.EndToEnd

open BleHidUart.Board BleHidUart.CtrlOta.Metadata BleHidUart.CtrlOta.Machine
open BleHidUart.CtrlOta.Moves BleHidUart.CtrlOta.Transfer BleHidUart.Ota.Handlers
open BleHidUart.Ota.Moves BleHidUart.Ota.Receive BleHidUart.Ota.Sender BleHidUart.Lib.Memory
open BleHidUart.Lib.Run BleHidUart.Lib.Word

/-- The invariant of an upload of the file of `len` bytes that is at the bottom of the EEPROM
`e`. -/
structure Uploading (e : Eeprom) (len crc : UInt32) (s : (CtrlOtaCtx × Eeprom) × Upload) :
    Prop where
  ctrl : CtrlInv s.1.1
  upload : UploadInv s.1 s.2
  length : s.1.1.fileLength = len
  fileCrc : s.1.1.fileCrc = crc
  image : slice s.1.2 0 len.toNat = slice e 0 len.toNat

variable {e : Eeprom} {len crc : UInt32}

theorem uploading_step (hlen : len.toNat ≤ flagAddr) (s : (CtrlOtaCtx × Eeprom) × Upload)
    (i : CtrlEvent) (h : Uploading e len crc s) : Uploading e len crc (uploadStep s i).1 := by
  have hm := ctrlHandle_move s.1.1 s.1.2 i
  obtain ⟨hl, hc⟩ := move_file hm
  have hbound : s.1.1.fileLength.toNat ≤ flagAddr := by rw [h.length]; exact hlen
  refine ⟨h.ctrl.move hm, h.upload.move h.ctrl hbound hm, hl.trans h.length, hc.trans h.fileCrc, ?_⟩
  have himg := h.image
  rw [← himg]
  exact slice_congr fun a _ ha => applyEffects_move_of_lt hm (by omega)

theorem uploading_boot {image : List UInt8} (h : Downloaded len crc image e) :
    Uploading e len crc ((ctrlOtaInit e, e), {}) := by
  have hboot := ctrlOtaInit_ready h.flag
  refine ⟨ctrlInv_init e, ⟨copies_nil, fun _ => ⟨rfl, rfl⟩, ?_, ?_, ?_, ?_⟩, ?_, ?_, rfl⟩
  · rw [hboot]; simp
  · rw [hboot]; simp
  · rw [hboot]; simp
  · rw [hboot]; simp
  · rw [hboot]; exact h.length
  · rw [hboot]; exact h.fileCrc

/-- **An upload sends the file that the metadata page announces.** -/
theorem upload_of_downloaded {image : List UInt8} (h : Downloaded len crc image e)
    (hlen : len.toNat ≤ flagAddr) (is : List CtrlEvent) :
    (∀ frame, Effect.uart frame ∈ outs ctrlStep (ctrlOtaInit e, e) is →
      byteAt frame 7 = ctrlCmdWriteReq → le32At frame 8 = len ∧ le32At frame 12 = crc) ∧
    ((final uploadStep ((ctrlOtaInit e, e), {}) is).1.1.state = .waitComplete →
      firstPayloads (final uploadStep ((ctrlOtaInit e, e), {}) is).2.frames = image ∧
        Copies (final uploadStep ((ctrlOtaInit e, e), {}) is).2.frames) := by
  have hboot := uploading_boot h
  refine ⟨fun frame hf hcmd => ?_, fun hs => ?_⟩
  · have houts : outs uploadStep ((ctrlOtaInit e, e), {}) is =
        outs ctrlStep (ctrlOtaInit e, e) is :=
      outs_withHistory _ is
    rw [← houts] at hf
    refine forall_outs (Q := fun o => ∀ frame, o = .uart frame → byteAt frame 7 = ctrlCmdWriteReq →
      le32At frame 8 = len ∧ le32At frame 12 = crc)
      (uploading_step hlen) ?_ hboot is _ hf frame rfl hcmd
    rintro s i hs _ ho frame rfl hcmd
    have hreq := request_of_move (ctrlHandle_move s.1.1 s.1.2 i) ho hcmd
    have hle := le32At_requestFrame s.1.1
    rwa [hreq, ← hs.length, ← hs.fileCrc]
  · have hfin := final_invariant (uploading_step hlen) hboot is
    have hdone := hfin.upload.done hs
    rw [hfin.length, hfin.image, h.image] at hdone
    exact ⟨hdone, hfin.upload.copies⟩

/-- **Download, then upload.** A start request opens a session for a file of `L` bytes with the CRC
`C`, the accepted packets hold at least `L` bytes and the last of them commits; after a reboot every
request announces `L` and `C`, and when the upload has reached `WAIT_COMPLETE` the payloads sent
since it last entered `SEND_REQUEST` are the first `L` bytes of the accepted contents. -/
theorem upload_ships_download {c : OtaContext} {e : Eeprom} {f : StartFrame} (ho : Opens c f)
    (fs : List DataFrame)
    (hend : EndsWithCommit (acceptLog (otaStep (c, e) (.start f)).1.1 fs))
    (hlen : (startLen f).toNat ≤
      (contents (acceptLog (otaStep (c, e) (.start f)).1.1 fs)).length)
    (is : List CtrlEvent) :
    let down := (final otaStep (c, e) (.start f :: fs.map .data)).2
    let up := final uploadStep ((ctrlOtaInit down, down), {}) is
    (∀ frame, Effect.uart frame ∈ outs ctrlStep (ctrlOtaInit down, down) is →
      byteAt frame 7 = ctrlCmdWriteReq →
        le32At frame 8 = startLen f ∧ le32At frame 12 = startCrc f) ∧
    (up.1.1.state = .waitComplete →
      firstPayloads up.2.frames =
          (contents (acceptLog (otaStep (c, e) (.start f)).1.1 fs)).take (startLen f).toNat ∧
        Copies up.2.frames) := by
  have hstart : Receiving (startLen f) (startCrc f) [] (otaStep (c, e) (.start f)).1 :=
    receiving_start (s := (c, e)) ho
  have hdown := download_complete fs hstart hend hlen
  have hbound : (startLen f).toNat ≤ flagAddr := UInt32.le_iff_toNat_le.mp ho.le
  exact upload_of_downloaded hdown hbound is

/-- The content of a full packet. -/
def fullPiece : Piece := ⟨(List.range 200).map UInt8.ofNat,
  by rw [List.length_map, List.length_range]⟩

/-- The file of 203 bytes is announced. -/
def longStart : StartFrame := startOfFile (fullPiece.1 ++ [5, 6, 7])

/-- A full packet, a damaged one, and one that is longer than what the file still lacks. -/
def longPackets : List DataFrame :=
  [packetOf 0 0x01 fullPiece, packetWith 0x00 1 0x01 ⟨[5, 6, 7, 8], by decide⟩,
    packetOf 1 0x00 ⟨[5, 6, 7, 8], by decide⟩]

/-- Two chunks are asked for; the ACK to the first one is late, so that it is sent a second time. -/
def longUpload : List CtrlEvent :=
  [.tick 40, .reply 0x17 50, .tick 60, .tick 600, .tick 605, .reply 0x0B 610, .tick 615,
    .reply 0x0B 620]

/-- The file is sent as it was announced, without the last byte of the last packet. -/
theorem upload_ships_download_longPackets :
    let down := (final otaStep (otaInit, fun _ => 0) (.start longStart :: longPackets.map .data)).2
    firstPayloads (final uploadStep ((ctrlOtaInit down, down), {}) longUpload).2.frames =
      fullPiece.1 ++ [5, 6, 7] := by
  have hsent := (upload_ships_download (c := otaInit) (e := fun _ => 0) (f := longStart)
    (by decide +kernel) longPackets (by decide +kernel) (by decide +kernel) longUpload).2
    (by decide +kernel)
  exact hsent.1.trans (by decide +kernel)

end BleHidUart.CtrlOta.EndToEnd
