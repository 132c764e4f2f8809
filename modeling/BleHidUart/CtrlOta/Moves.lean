import BleHidUart.CtrlOta.Machine

/-!
# What a tick or a reply can do

`CtrlMove` lists the moves of the upload with their guards; `ctrlHandle_move` says that every event
makes one of them. `dataFrames` picks the `0x2B` frames out of the effects, `payload` the image
bytes out of a data frame.
-/

namespace BleHidUart.CtrlOta.Moves

open BleHidUart.Board BleHidUart.CtrlOta.Metadata BleHidUart.CtrlOta.Machine BleHidUart.Lib.Memory
open BleHidUart.Lib.Word

/-! ### Frames on the UART -/

/-- The payload of a data frame: between the nine bytes before it and the CRC after it. -/
def payload (frame : List UInt8) : List UInt8 := (frame.drop 9).take (frame.length - 10)

/-- The `0x2B` frames among the effects. -/
def dataFrames (fx : List Effect) : List (List UInt8) :=
  fx.filterMap fun
    | .uart frame => if byteAt frame 7 = ctrlCmdData then some frame else none
    | _ => none

theorem dataFrames_append (fx gx : List Effect) :
    dataFrames (fx ++ gx) = dataFrames fx ++ dataFrames gx := List.filterMap_append

@[simp] theorem dataFrames_result (r : UInt8) (fx : List Effect) :
    dataFrames (ctrlOtaNotifyResult r :: fx) = dataFrames fx := rfl

@[simp] theorem dataFrames_writeFlag (flag : UInt8) : dataFrames (writeFlag flag) = [] := by
  simp [dataFrames, writeFlag, eepromWrite, List.filterMap_map]

/-- The bytes of the request frame. -/
def requestFrame (g : CtrlOtaCtx) : List UInt8 :=
  ctrlOtaHeader ++ [0x10, ctrlCmdWriteReq,
    byte32 g.fileLength 0, byte32 g.fileLength 1, byte32 g.fileLength 2, byte32 g.fileLength 3,
    byte32 g.fileCrc 0, byte32 g.fileCrc 1, byte32 g.fileCrc 2, byte32 g.fileCrc 3]

/-- The bytes of the next payload. -/
def chunkBytes (g : CtrlOtaCtx) (e : Eeprom) : List UInt8 :=
  eepromRead e g.eepromReadAddr (ctrlOtaChunk g).toNat

/-- The bytes of the next data frame. -/
def dataFrame (g : CtrlOtaCtx) (e : Eeprom) : List UInt8 :=
  ctrlOtaHeader ++ (ctrlDataHdrOverhead + ctrlOtaChunk g).toUInt8 :: ctrlCmdData ::
    (if (ctrlOtaChunk g).toUInt32 < g.fileLength - g.sentLength then 0x01 else 0x00) ::
    chunkBytes g e ++ [ctrlOtaCrc8 (chunkBytes g e)]

theorem ctrlOtaSendRequest_eq (g : CtrlOtaCtx) : ctrlOtaSendRequest g = .uart (requestFrame g) :=
  rfl

theorem ctrlOtaSendDataFrame_eq (g : CtrlOtaCtx) (e : Eeprom) :
    ctrlOtaSendDataFrame g e = .uart (dataFrame g e) := rfl

@[simp] theorem payload_dataFrame (g : CtrlOtaCtx) (e : Eeprom) :
    payload (dataFrame g e) = chunkBytes g e := by
  unfold payload dataFrame ctrlOtaHeader
  simp

@[simp] theorem dataFrames_data (g : CtrlOtaCtx) (e : Eeprom) :
    dataFrames [ctrlOtaSendDataFrame g e] = [dataFrame g e] := rfl

theorem le32At_requestFrame (g : CtrlOtaCtx) :
    le32At (requestFrame g) 8 = g.fileLength ∧ le32At (requestFrame g) 12 = g.fileCrc :=
  ⟨le32_byte32 g.fileLength, le32_byte32 g.fileCrc⟩

/-! ### Moves -/

/-- The event is a tick on which the ACK timeout fires. -/
def TimesOut (g : CtrlOtaCtx) : CtrlEvent → Prop
  | .tick now => g.state = .waitDataAck ∧ 500 ≤ now - g.lastRequestTime
  | .reply _ _ => False

instance (g : CtrlOtaCtx) : (i : CtrlEvent) → Decidable (TimesOut g i)
  | .tick now =>
    inferInstanceAs (Decidable (g.state = .waitDataAck ∧ 500 ≤ now - g.lastRequestTime))
  | .reply _ _ => .isFalse id

theorem not_timesOut {g : CtrlOtaCtx} {now : UInt32} (h : g.state ≠ .waitDataAck) :
    ¬ TimesOut g (.tick now) := fun ht => h ht.1

/-- The event is a reply with command `cmd`. -/
def IsReply (cmd : UInt8) : CtrlEvent → Prop
  | .tick _ => False
  | .reply c _ => c = cmd

instance (cmd : UInt8) : (i : CtrlEvent) → Decidable (IsReply cmd i)
  | .tick _ => .isFalse id
  | .reply c _ => inferInstanceAs (Decidable (c = cmd))

@[simp] theorem isReply_tick (cmd : UInt8) (now : UInt32) : ¬ IsReply cmd (.tick now) := id

@[simp] theorem isReply_reply (cmd c : UInt8) (now : UInt32) :
    IsReply cmd (.reply c now) ↔ c = cmd := Iff.rfl

/-- The event is none of those that change something in every state they are for. -/
structure Passes (g : CtrlOtaCtx) (i : CtrlEvent) : Prop where
  timeout : ¬ TimesOut g i
  ack : ¬ (IsReply ctrlCmdDataAck i ∧ g.state = .waitDataAck)
  success : ¬ IsReply ctrlCmdCrcSuccess i
  crcFail : ¬ IsReply ctrlCmdCrcFail i

/-- **What an event can do**: the next context and the effects. -/
inductive CtrlMove (g : CtrlOtaCtx) (e : Eeprom) : CtrlEvent → CtrlOtaCtx → List Effect → Prop
  | stay (i : CtrlEvent) : Passes g i → CtrlMove g e i g []
  | failed (now : UInt32) : g.state = .filed →
      CtrlMove g e (.tick now) g [ctrlOtaNotifyResult ctrlOtaResultFailed]
  | request (now : UInt32) : g.state = .sendRequest →
      CtrlMove g e (.tick now) { g with lastRequestTime := now } [ctrlOtaSendRequest g]
  | finish (now : UInt32) : g.state = .sendData → g.sentLength = g.fileLength →
      CtrlMove g e (.tick now) { g with state := .waitComplete } []
  | send (now : UInt32) : g.state = .sendData → g.sentLength ≠ g.fileLength →
      CtrlMove g e (.tick now) { g with state := .waitDataAck, lastRequestTime := now }
        [ctrlOtaSendDataFrame g e]
  | timeout (now : UInt32) : g.state = .waitDataAck → 500 ≤ now - g.lastRequestTime →
      CtrlMove g e (.tick now) { g with state := .sendData } []
  | restart (now : UInt32) : g.state = .error →
      CtrlMove g e (.tick now)
        { g with
          state := .sendRequest, sentLength := 0, eepromReadAddr := 0, lastRequestTime := now } []
  | confirm (now : UInt32) : g.state = .sendRequest →
      CtrlMove g e (.reply ctrlCmdReqConfirm now) { g with state := .waitConfirm } []
  | erased (now : UInt32) : g.state = .sendRequest ∨ g.state = .waitConfirm →
      CtrlMove g e (.reply ctrlCmdFlashEraseOk now) { g with state := .sendData } []
  | ackLast (now : UInt32) : g.state = .waitDataAck →
      (ctrlOtaAdvanceData g).sentLength = g.fileLength →
      CtrlMove g e (.reply ctrlCmdDataAck now)
        { ctrlOtaAdvanceData g with state := .waitComplete, lastRequestTime := now }
        [ctrlOtaNotifyProgress (ctrlOtaAdvanceData g).sentLength g.fileLength]
  | ackMore (now : UInt32) : g.state = .waitDataAck →
      (ctrlOtaAdvanceData g).sentLength ≠ g.fileLength →
      CtrlMove g e (.reply ctrlCmdDataAck now)
        { ctrlOtaAdvanceData g with state := .sendData, lastRequestTime := now }
        [ctrlOtaNotifyProgress (ctrlOtaAdvanceData g).sentLength g.fileLength]
  | success (now : UInt32) :
      CtrlMove g e (.reply ctrlCmdCrcSuccess now) { g with state := .complete }
        (ctrlOtaNotifyResult ctrlOtaResultOk :: writeFlag ctrlOtaFlagIdle)
  | crcFail (now : UInt32) :
      CtrlMove g e (.reply ctrlCmdCrcFail now) { g with state := .error }
        [ctrlOtaNotifyResult ctrlOtaResultError]
  | refused (cmd : UInt8) (now : UInt32) :
      cmd = ctrlCmdCrcError ∧ g.state = .waitDataAck ∨ cmd = ctrlCmdLenError →
      CtrlMove g e (.reply cmd now) { g with state := .filed }
        [ctrlOtaNotifyResult ctrlOtaResultFailed]

theorem sub_eq_zero_iff (g : CtrlOtaCtx) :
    g.fileLength - g.sentLength = 0 ↔ g.sentLength = g.fileLength := by
  rw [UInt32.sub_eq_iff_eq_add, UInt32.zero_add]
  exact eq_comm

theorem passes_tick {g : CtrlOtaCtx} {now : UInt32} (h : ¬ TimesOut g (.tick now)) :
    Passes g (.tick now) := ⟨h, fun h => h.1, id, id⟩

theorem ctrlOtaProcess_move (g : CtrlOtaCtx) (e : Eeprom) (now : UInt32) :
    CtrlMove g e (.tick now) (ctrlOtaProcess g e now).1 (ctrlOtaProcess g e now).2 := by
  have hstay : g.state ≠ .waitDataAck → CtrlMove g e (.tick now) g [] := fun hs =>
    .stay _ (passes_tick fun h => hs h.1)
  unfold ctrlOtaProcess
  cases hs : g.state with
  | idle | complete | waitConfirm | waitComplete => exact hstay (by simp [hs])
  | sendRequest =>
    dsimp only
    split_ifs
    · exact hstay (by simp [hs])
    · have hm := CtrlMove.request (e := e) now hs
      rwa [hs] at hm
    · exact hstay (by simp [hs])
  | sendData =>
    dsimp only
    by_cases h0 : g.fileLength - g.sentLength = 0
    · rw [if_pos h0]
      exact .finish now hs ((sub_eq_zero_iff g).mp h0)
    · rw [if_neg h0]
      exact .send now hs fun h => h0 ((sub_eq_zero_iff g).mpr h)
  | waitDataAck =>
    dsimp only
    by_cases ht : 500 ≤ now - g.lastRequestTime
    · rw [if_pos ht]
      exact .timeout now hs ht
    · rw [if_neg ht]
      exact .stay _ (passes_tick fun h => ht h.2)
  | error => exact .restart now hs
  | filed => exact .failed now hs

theorem ctrlOtaHandleReply_move (g : CtrlOtaCtx) (e : Eeprom) (cmd : UInt8) (now : UInt32) :
    CtrlMove g e (.reply cmd now) (ctrlOtaHandleReply g cmd now).1
      (ctrlOtaHandleReply g cmd now).2 := by
  have hstay : cmd ≠ ctrlCmdDataAck ∨ g.state ≠ .waitDataAck → cmd ≠ ctrlCmdCrcSuccess →
      cmd ≠ ctrlCmdCrcFail → CtrlMove g e (.reply cmd now) g [] := fun hack h1 h2 =>
    .stay _ ⟨id, fun h => hack.elim (fun hc => hc h.1) fun hs => hs h.2, h1, h2⟩
  unfold ctrlOtaHandleReply
  by_cases h07 : cmd = ctrlCmdReqConfirm
  · subst h07
    rw [if_pos rfl]
    by_cases hs : g.state = .sendRequest
    · rw [if_pos hs]
      exact .confirm now hs
    · rw [if_neg hs]
      exact hstay (.inl (by decide)) (by decide) (by decide)
  rw [if_neg h07]
  by_cases h17 : cmd = ctrlCmdFlashEraseOk
  · subst h17
    rw [if_pos rfl]
    by_cases hs : g.state = .sendRequest ∨ g.state = .waitConfirm
    · rw [if_pos hs]
      exact .erased now hs
    · rw [if_neg hs]
      exact hstay (.inl (by decide)) (by decide) (by decide)
  rw [if_neg h17]
  by_cases h0b : cmd = ctrlCmdDataAck
  · subst h0b
    rw [if_pos rfl]
    by_cases hs : g.state = .waitDataAck
    · rw [if_pos hs]
      by_cases hl : (ctrlOtaAdvanceData g).sentLength = g.fileLength
      · have hl' : (ctrlOtaAdvanceData g).sentLength = (ctrlOtaAdvanceData g).fileLength := hl
        simp only [if_pos hl']
        exact .ackLast now hs hl
      · have hl' : ¬ (ctrlOtaAdvanceData g).sentLength = (ctrlOtaAdvanceData g).fileLength := hl
        simp only [if_neg hl']
        exact .ackMore now hs hl
    · rw [if_neg hs]
      exact hstay (.inr hs) (by decide) (by decide)
  rw [if_neg h0b]
  by_cases h08 : cmd = ctrlCmdRecvComplete
  · subst h08
    rw [if_pos rfl]
    exact hstay (.inl (by decide)) (by decide) (by decide)
  rw [if_neg h08]
  by_cases h0c : cmd = ctrlCmdCrcSuccess
  · subst h0c
    rw [if_pos rfl]
    exact .success now
  rw [if_neg h0c]
  by_cases h0d : cmd = ctrlCmdCrcFail
  · subst h0d
    rw [if_pos rfl]
    exact .crcFail now
  rw [if_neg h0d]
  by_cases h09 : cmd = ctrlCmdCrcError
  · rw [if_pos h09]
    by_cases hs : g.state = .waitDataAck
    · rw [if_pos hs]
      exact .refused cmd now (.inl ⟨h09, hs⟩)
    · rw [if_neg hs]
      exact hstay (.inl h0b) h0c h0d
  rw [if_neg h09]
  by_cases h0a : cmd = ctrlCmdLenError
  · rw [if_pos h0a]
    exact .refused cmd now (.inr h0a)
  · rw [if_neg h0a]
    exact hstay (.inl h0b) h0c h0d

/-- The test in the main loop makes no difference: an inactive machine does nothing on a tick. -/
theorem ctrlHandle_tick (g : CtrlOtaCtx) (e : Eeprom) (now : UInt32) :
    ctrlHandle g e (.tick now) = ctrlOtaProcess g e now := by
  by_cases ha : ctrlOtaIsActive g
  · exact if_pos ha
  · have hs : g.state = .idle ∨ g.state = .complete := by
      simp only [ctrlOtaIsActive, decide_eq_true_eq] at ha
      tauto
    have hstay : ctrlHandle g e (.tick now) = (g, []) := if_neg ha
    rw [hstay]
    unfold ctrlOtaProcess
    rcases hs with hs | hs <;> rw [hs]

/-- **Every event makes one of the moves.** -/
theorem ctrlHandle_move (g : CtrlOtaCtx) (e : Eeprom) :
    ∀ i : CtrlEvent, CtrlMove g e i (ctrlHandle g e i).1 (ctrlHandle g e i).2
  | .tick now => by
    rw [ctrlHandle_tick]
    exact ctrlOtaProcess_move g e now
  | .reply cmd now => ctrlOtaHandleReply_move g e cmd now

/-! ### What a move does to the EEPROM -/

@[simp] theorem applyEffect_sendRequest (e : Eeprom) (g : CtrlOtaCtx) :
    applyEffect e (ctrlOtaSendRequest g) = e := rfl

@[simp] theorem applyEffect_sendDataFrame (e : Eeprom) (g : CtrlOtaCtx) (e' : Eeprom) :
    applyEffect e (ctrlOtaSendDataFrame g e') = e := rfl

@[simp] theorem applyEffect_progress (e : Eeprom) (sent total : UInt32) :
    applyEffect e (ctrlOtaNotifyProgress sent total) = e := rfl

@[simp] theorem applyEffect_result (e : Eeprom) (r : UInt8) :
    applyEffect e (ctrlOtaNotifyResult r) = e := rfl

/-- Only the success reply writes the EEPROM: it clears the flag. -/
theorem applyEffects_move {g g' : CtrlOtaCtx} {e : Eeprom} {i : CtrlEvent} {fx : List Effect}
    (hm : CtrlMove g e i g' fx) : applyEffects e fx =
      if IsReply ctrlCmdCrcSuccess i then store e flagAddr [ctrlOtaFlagIdle] else e := by
  cases hm with
  | stay i hp => rw [if_neg hp.success, applyEffects_nil]
  | success now =>
    rw [if_pos ((isReply_reply _ _ _).mpr rfl), applyEffects_cons, applyEffect_result,
      applyEffects_writeFlag]
  | refused cmd now hc =>
    have hne : cmd ≠ ctrlCmdCrcSuccess := by
      rcases hc with ⟨rfl, -⟩ | rfl <;> decide
    rw [if_neg fun h => hne ((isReply_reply _ _ _).mp h)]
    simp
  | failed | request | finish | send | timeout | restart =>
    rw [if_neg (isReply_tick _ _)]
    simp
  | confirm | erased | ackLast | ackMore | crcFail =>
    rw [if_neg fun h => absurd ((isReply_reply _ _ _).mp h) (by decide)]
    simp

theorem request_of_move {g g' : CtrlOtaCtx} {e : Eeprom} {i : CtrlEvent} {fx : List Effect}
    (hm : CtrlMove g e i g' fx) {frame : List UInt8} (hf : Effect.uart frame ∈ fx)
    (hcmd : byteAt frame 7 = ctrlCmdWriteReq) : frame = requestFrame g := by
  cases hm with
  | request now hs =>
    rw [ctrlOtaSendRequest_eq, List.mem_singleton] at hf
    exact Effect.uart.inj hf
  | send now hs hne =>
    rw [ctrlOtaSendDataFrame_eq, List.mem_singleton] at hf
    have hdata : byteAt (dataFrame g e) 7 = ctrlCmdData := rfl
    rw [Effect.uart.inj hf, hdata] at hcmd
    exact absurd hcmd (by decide)
  | success now => simp [ctrlOtaNotifyResult, writeFlag, eepromWrite] at hf
  | stay | finish | timeout | restart | confirm | erased => cases hf
  | failed | ackLast | ackMore | crcFail | refused =>
    simp [ctrlOtaNotifyResult, ctrlOtaNotifyProgress] at hf

theorem data_of_move {g g' : CtrlOtaCtx} {e : Eeprom} {i : CtrlEvent} {fx : List Effect}
    (hm : CtrlMove g e i g' fx) {frame : List UInt8} (hf : Effect.uart frame ∈ fx)
    (hcmd : byteAt frame 7 = ctrlCmdData) :
    g.state = .sendData ∧ g.sentLength ≠ g.fileLength ∧ frame = dataFrame g e := by
  cases hm with
  | request now hs =>
    have hreq : byteAt (requestFrame g) 7 = ctrlCmdWriteReq := rfl
    rw [ctrlOtaSendRequest_eq, List.mem_singleton] at hf
    rw [Effect.uart.inj hf, hreq] at hcmd
    exact absurd hcmd (by decide)
  | send now hs hne =>
    rw [ctrlOtaSendDataFrame_eq, List.mem_singleton] at hf
    exact ⟨hs, hne, Effect.uart.inj hf⟩
  | success now => simp [ctrlOtaNotifyResult, writeFlag, eepromWrite] at hf
  | stay | finish | timeout | restart | confirm | erased => cases hf
  | failed | ackLast | ackMore | crcFail | refused =>
    simp [ctrlOtaNotifyResult, ctrlOtaNotifyProgress] at hf

theorem applyEffects_move_of_lt {g g' : CtrlOtaCtx} {e : Eeprom} {i : CtrlEvent}
    {fx : List Effect} (hm : CtrlMove g e i g' fx) {a : ℕ} (ha : a < flagAddr) :
    applyEffects e fx a = e a := by
  rw [applyEffects_move hm]
  split_ifs
  · exact store_of_lt _ ha
  · rfl

end BleHidUart.CtrlOta.Moves
