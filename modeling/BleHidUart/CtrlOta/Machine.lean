import BleHidUart.CtrlOta.Metadata

/-!
# The controller-side upload: context, ticks and replies

After a boot with the ready flag the firmware uploads the image to the controller: a request with
the length and the CRC, then data frames of at most 200 bytes read from the EEPROM, each answered by
an ACK. `ctrlOtaProcess` is called by the main loop, `ctrlOtaHandleReply` by the UART interrupt for
each reply. Both read the uptime, which is an argument here. `printk` output and the sleep of the
failed state are left out.
-/

namespace BleHidUart.CtrlOta.Machine

open BleHidUart.Board BleHidUart.CtrlOta.Metadata BleHidUart.Lib.Word

def ctrlCmdWriteReq : UInt8 := 0x06
def ctrlCmdData : UInt8 := 0x2B

def ctrlOtaV3Progress : UInt8 := 0x09
def ctrlOtaV3Result : UInt8 := 0x0A
def ctrlOtaResultOk : UInt8 := 0x01
def ctrlOtaResultError : UInt8 := 0x02
def ctrlOtaResultFailed : UInt8 := 0x03

def ctrlCmdReqConfirm : UInt8 := 0x07
def ctrlCmdFlashEraseOk : UInt8 := 0x17
def ctrlCmdDataAck : UInt8 := 0x0B
def ctrlCmdRecvComplete : UInt8 := 0x08
def ctrlCmdCrcSuccess : UInt8 := 0x0C
def ctrlCmdCrcFail : UInt8 := 0x0D
def ctrlCmdCrcError : UInt8 := 0x09
def ctrlCmdLenError : UInt8 := 0x0A

def ctrlDataHdrOverhead : UInt16 := 10
def ctrlDataMaxPayload : UInt16 := 200

/-- `ctrl_ota_header`. -/
def ctrlOtaHeader : List UInt8 := [0xEB, 0x90, 0xEB, 0x90, 0xEB, 0x90]

/-- `CtrlOtaState`. -/
inductive CtrlOtaState
  | idle | sendRequest | waitConfirm | sendData | waitDataAck | waitComplete | complete | error
  | filed
  deriving DecidableEq, Repr

/-- `CtrlOtaCtx`. -/
structure CtrlOtaCtx where
  state : CtrlOtaState := .idle
  fileLength : UInt32 := 0
  fileCrc : UInt32 := 0
  sentLength : UInt32 := 0
  eepromReadAddr : UInt32 := 0
  lastRequestTime : UInt32 := 0
  deriving DecidableEq, Repr

/-- `CtrlOtaCrc8`. -/
def ctrlOtaCrc8 (data : List UInt8) : UInt8 := data.foldl (fun crc b => crc ^^^ b) 0

/-- `Ctrl_ota_send_raw`. -/
def ctrlOtaSendRaw (data : List UInt8) : Effect := .uart data

/-- `Ctrl_ota_send_request`. -/
def ctrlOtaSendRequest (g : CtrlOtaCtx) : Effect :=
  ctrlOtaSendRaw (ctrlOtaHeader ++ [0x10, ctrlCmdWriteReq,
    byte32 g.fileLength 0, byte32 g.fileLength 1, byte32 g.fileLength 2, byte32 g.fileLength 3,
    byte32 g.fileCrc 0, byte32 g.fileCrc 1, byte32 g.fileCrc 2, byte32 g.fileCrc 3])

/-- `chunk`: the size of the next payload. -/
def ctrlOtaChunk (g : CtrlOtaCtx) : UInt16 :=
  let remaining := g.fileLength - g.sentLength
  if ctrlDataMaxPayload.toUInt32 < remaining then ctrlDataMaxPayload else remaining.toUInt16

/-- `Ctrl_ota_send_data_frame`. -/
def ctrlOtaSendDataFrame (g : CtrlOtaCtx) (e : Eeprom) : Effect :=
  let remaining := g.fileLength - g.sentLength
  let chunk := ctrlOtaChunk g
  let hasMore : UInt8 := if chunk.toUInt32 < remaining then 0x01 else 0x00
  let dataBuf := eepromRead e g.eepromReadAddr chunk.toNat
  let dataCrc := ctrlOtaCrc8 dataBuf
  let frameLen := ctrlDataHdrOverhead + chunk
  ctrlOtaSendRaw (ctrlOtaHeader ++ frameLen.toUInt8 :: ctrlCmdData :: hasMore :: dataBuf ++
    [dataCrc])

/-- `Ctrl_ota_advance_data`. -/
def ctrlOtaAdvanceData (g : CtrlOtaCtx) : CtrlOtaCtx :=
  let chunk := ctrlOtaChunk g
  { g with
    eepromReadAddr := g.eepromReadAddr + chunk.toUInt32
    sentLength := g.sentLength + chunk.toUInt32 }

/-- `Ctrl_ota_notify_progress`. -/
def ctrlOtaNotifyProgress (sent total : UInt32) : Effect :=
  let pct : UInt8 := if total = 0 then 0 else ((sent * 100) / total).toUInt8
  .notify [0x53, 0x35, ctrlOtaV3Progress, 0x05, pct] 5

/-- `Ctrl_ota_notify_result`. -/
def ctrlOtaNotifyResult (result : UInt8) : Effect :=
  .notify [0x53, 0x35, ctrlOtaV3Result, 0x05, result] 5

/-- `Ctrl_ota_init`. Both branches set every field. -/
def ctrlOtaInit (e : Eeprom) : CtrlOtaCtx :=
  let flag := byteAt (eepromRead e ctrlOtaFlagAddr 1) 0
  if flag ≠ ctrlOtaFlagReady then {}
  else
    let meta8 := eepromRead e ctrlOtaMetaFileLen 8
    { fileLength := le32At meta8 0
      fileCrc := le32At meta8 4
      sentLength := 0
      eepromReadAddr := 0
      lastRequestTime := 0
      state := .sendRequest }

/-- `Ctrl_ota_process`. -/
def ctrlOtaProcess (g : CtrlOtaCtx) (e : Eeprom) (now : UInt32) : CtrlOtaCtx × List Effect :=
  match g.state with
  | .idle | .complete => (g, [])
  | .sendRequest =>
    if now ≤ g.lastRequestTime then (g, [])
    else if g.lastRequestTime + 30 ≤ now then
      ({ g with lastRequestTime := now }, [ctrlOtaSendRequest g])
    else (g, [])
  | .sendData =>
    let remaining := g.fileLength - g.sentLength
    if remaining = 0 then ({ g with state := .waitComplete }, [])
    else
      let g := { g with state := .waitDataAck }
      ({ g with lastRequestTime := now }, [ctrlOtaSendDataFrame g e])
  | .waitDataAck =>
    -- the timeout: the same frame goes out again
    if 500 ≤ now - g.lastRequestTime then ({ g with state := .sendData }, []) else (g, [])
  | .waitConfirm | .waitComplete => (g, [])
  | .error =>
    ({ g with state := .sendRequest, sentLength := 0, eepromReadAddr := 0, lastRequestTime := now },
      [])
  | .filed => (g, [ctrlOtaNotifyResult ctrlOtaResultFailed])

/-- `Ctrl_ota_handle_reply`. -/
def ctrlOtaHandleReply (g : CtrlOtaCtx) (cmd : UInt8) (now : UInt32) : CtrlOtaCtx × List Effect :=
  if cmd = ctrlCmdReqConfirm then
    if g.state = .sendRequest then ({ g with state := .waitConfirm }, []) else (g, [])
  else if cmd = ctrlCmdFlashEraseOk then
    if g.state = .sendRequest ∨ g.state = .waitConfirm then ({ g with state := .sendData }, [])
    else (g, [])
  else if cmd = ctrlCmdDataAck then
    if g.state = .waitDataAck then
      let g := ctrlOtaAdvanceData g
      let progress := ctrlOtaNotifyProgress g.sentLength g.fileLength
      let g := { g with lastRequestTime := now }
      if g.sentLength = g.fileLength then ({ g with state := .waitComplete }, [progress])
      else ({ g with state := .sendData }, [progress])
    else (g, [])
  else if cmd = ctrlCmdRecvComplete then (g, [])
  else if cmd = ctrlCmdCrcSuccess then
    -- unlike the commands above, without a look at the state
    ({ g with state := .complete },
      ctrlOtaNotifyResult ctrlOtaResultOk :: writeFlag ctrlOtaFlagIdle)
  else if cmd = ctrlCmdCrcFail then
    ({ g with state := .error }, [ctrlOtaNotifyResult ctrlOtaResultError])
  else if cmd = ctrlCmdCrcError then
    if g.state = .waitDataAck then
      ({ g with state := .filed }, [ctrlOtaNotifyResult ctrlOtaResultFailed])
    else (g, [])
  else if cmd = ctrlCmdLenError then
    ({ g with state := .filed }, [ctrlOtaNotifyResult ctrlOtaResultFailed])
  else (g, [])

/-- `Ctrl_ota_is_active`. -/
def ctrlOtaIsActive (g : CtrlOtaCtx) : Bool := g.state ≠ .idle ∧ g.state ≠ .complete

/-- What reaches the machine after the boot: a round of the main loop, or a reply of the controller;
with the uptime in milliseconds. -/
inductive CtrlEvent
  | tick (now : UInt32)
  | reply (cmd : UInt8) (now : UInt32)
  deriving DecidableEq, Repr

/-- The main loop only calls `Ctrl_ota_process` while the upload is active. -/
def ctrlHandle (g : CtrlOtaCtx) (e : Eeprom) : CtrlEvent → CtrlOtaCtx × List Effect
  | .tick now => if ctrlOtaIsActive g then ctrlOtaProcess g e now else (g, [])
  | .reply cmd now => ctrlOtaHandleReply g cmd now

/-- The controller side as a machine: the context and the EEPROM. -/
def ctrlStep (s : CtrlOtaCtx × Eeprom) (i : CtrlEvent) : (CtrlOtaCtx × Eeprom) × List Effect :=
  (((ctrlHandle s.1 s.2 i).1, applyEffects s.2 (ctrlHandle s.1 s.2 i).2), (ctrlHandle s.1 s.2 i).2)

end BleHidUart.CtrlOta.Machine
