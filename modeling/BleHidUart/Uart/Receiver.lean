import BleHidUart.CtrlOta.Machine
import BleHidUart.Lib.Run
import BleHidUart.V3.Parser

/-!
# The UART receiver

`Ble_hid_uart_irq_rx_ready` moves the bytes of the UART FIFO into `RX_Sendata`: on a DATA event all
but one, on a TIMEOUT event, when the sender pauses, all. A TIMEOUT then looks at what has been
collected: OTA replies of the controller, a V3 frame, or anything else.

`RX_Sendata` is the memory from the first byte of the array on; a store outside of the array changes
a later cell. `printk` output is left out.

* `timeoutFill_eq`, `dataFill_eq`: what the two filling loops move.
* `timeoutTail_cases`: what becomes of the collected bytes.
-/

namespace BleHidUart.Uart.Receiver

open BleHidUart.Board BleHidUart.Lib.Memory BleHidUart.Lib.Word BleHidUart.V3.Parser

def rxBufferSize : ℕ := 240
def ctrlRspFrameLen : ℕ := 8

def ctrlOtaHeadByte : UInt8 := 0xEB
def ctrlOtaHeadByte2 : UInt8 := 0x90

/-- `RX_Sendata` and `USART_RX_CNT`, with the bytes that wait in the FIFO. -/
structure RxState where
  rxSendata : ℕ → UInt8 := fun _ => 0
  usartRxCnt : ℕ := 0
  fifo : List UInt8 := []

/-- What the receiver calls: `Ctrl_ota_handle_reply`, `V3_handle_mcu_data`, `Handle_protocol_data`
and `handle_UC_uart_cmd`. -/
inductive RxCall
  | ctrlReply (cmd : UInt8)
  | mcuData (data : List UInt8)
  | protocolData (data : List UInt8)
  | ucCmd (data : List UInt8)
  deriving DecidableEq, Repr

/-- A store into `RX_Sendata`, or a call. -/
inductive RxOut
  | store (index : ℕ)
  | call (c : RxCall)
  deriving DecidableEq, Repr

/-- The event of the UART; `arrived` has come since the last one. -/
inductive UartEvent
  | timeout (arrived : List UInt8)
  | data (arrived : List UInt8)
  deriving DecidableEq, Repr

/-- The bytes that have come with an event. -/
def UartEvent.arrived : UartEvent → List UInt8
  | .timeout bs | .data bs => bs

/-- `RX_Sendata[USART_RX_CNT++] = UART_ReceiveData(TGT_UART)`. -/
def rxStore (u : RxState) : RxState where
  rxSendata := Function.update u.rxSendata u.usartRxCnt (u.fifo.headD 0)
  usartRxCnt := (u.usartRxCnt + 1) % 65536
  fifo := u.fifo.tail

/-- The bytes that arrive wait in the FIFO. -/
def arrive (u : RxState) (arrived : List UInt8) : RxState := { u with fifo := u.fifo ++ arrived }

/-- `rec_num`, a `uint8_t`. -/
def recNum (u : RxState) : ℕ := (UInt8.ofNat u.fifo.length).toNat

/-- The filling loop of the TIMEOUT branch. -/
def timeoutFill : ℕ → RxState → RxState × List RxOut
  | 0, u => (u, [])
  | n + 1, u =>
    let r := timeoutFill n (rxStore u)
    (r.1, .store u.usartRxCnt :: r.2)

/-- The filling loop of the DATA branch. It looks at the counter after the store. -/
def dataFill : ℕ → RxState → RxState × List RxOut
  | 0, u => (u, [])
  | n + 1, u =>
    if rxBufferSize ≤ (rxStore u).usartRxCnt then (rxStore u, [.store u.usartRxCnt])
    else
      let r := dataFill n (rxStore u)
      (r.1, .store u.usartRxCnt :: r.2)

/-- The collected bytes start with an OTA reply of the controller. -/
def HasCtrlReply (u : RxState) : Prop :=
  ctrlRspFrameLen ≤ u.usartRxCnt ∧ u.rxSendata 0 = ctrlOtaHeadByte ∧
    u.rxSendata 1 = ctrlOtaHeadByte2 ∧ u.rxSendata 2 = ctrlOtaHeadByte ∧
    u.rxSendata 3 = ctrlOtaHeadByte2 ∧ u.rxSendata 4 = ctrlOtaHeadByte ∧
    u.rxSendata 5 = ctrlOtaHeadByte2 ∧ u.rxSendata 6 = 0x08

instance (u : RxState) : Decidable (HasCtrlReply u) := by unfold HasCtrlReply; infer_instance

/-- The loop over the OTA replies. A round takes 8 bytes: as many rounds as bytes are enough. -/
def otaReplyLoop : ℕ → RxState → RxState × List RxCall
  | 0, u => (u, [])
  | fuel + 1, u =>
    if HasCtrlReply u then
      let cnt := u.usartRxCnt - ctrlRspFrameLen
      let r := otaReplyLoop fuel
        { u with
          rxSendata := store u.rxSendata 0 (slice u.rxSendata ctrlRspFrameLen cnt)
          usartRxCnt := cnt }
      (r.1, .ctrlReply (u.rxSendata 7) :: r.2)
    else (u, [])

/-- The TIMEOUT branch after the filling loop. `ota_handled` is set when the loop has made a
call. -/
def timeoutTail (u : RxState) : RxState × List RxCall :=
  let r := otaReplyLoop u.usartRxCnt u
  let u := r.1
  if r.2 ≠ [] then ({ u with usartRxCnt := 0 }, r.2)
  else if 0 < u.usartRxCnt ∧ u.rxSendata 0 = v3FrameHead0 ∧ u.rxSendata 1 = v3FrameHead1 then
    if 3 ≤ u.usartRxCnt then
      let frameSize := v3FrameSizeFromCmd (u.rxSendata 2)
      if 0 < frameSize ∧ frameSize ≤ u.usartRxCnt then
        ({ u with usartRxCnt := 0 }, [.mcuData (slice u.rxSendata 0 frameSize)])
      else (u, [])
    else (u, [])
  else
    let data := slice u.rxSendata 0 u.usartRxCnt
    ({ u with usartRxCnt := 0 }, [.protocolData data, .ucCmd data])

/-- `Ble_hid_uart_irq_rx_ready`. -/
def rxStep (u : RxState) : UartEvent → RxState × List RxOut
  | .timeout arrived =>
    let u := arrive u arrived
    let r := timeoutFill (recNum u) u
    let t := timeoutTail r.1
    (t.1, r.2 ++ t.2.map .call)
  | .data arrived =>
    let u := arrive u arrived
    if 1 < recNum u then dataFill (recNum u - 1) u else (u, [])

/-! ### Filling -/

/-- The collected bytes. -/
def buffered (u : RxState) : List UInt8 := slice u.rxSendata 0 u.usartRxCnt

/-- The state after `n` stores. -/
def moved (u : RxState) (n : ℕ) : RxState where
  rxSendata := store u.rxSendata u.usartRxCnt (u.fifo.take n)
  usartRxCnt := u.usartRxCnt + n
  fifo := u.fifo.drop n

@[simp] theorem moved_zero (u : RxState) : moved u 0 = u := by
  unfold moved
  rw [List.take_zero, store_nil, List.drop_zero, Nat.add_zero]

theorem moved_rxStore {u : RxState} {n : ℕ} (hn : n + 1 ≤ u.fifo.length)
    (hcnt : u.usartRxCnt + (n + 1) < 65536) : moved (rxStore u) n = moved u (n + 1) := by
  obtain ⟨b, bs, hbs⟩ : ∃ b bs, u.fifo = b :: bs :=
    List.exists_cons_of_ne_nil fun hnil => by rw [hnil, List.length_nil] at hn; omega
  have hmod : (u.usartRxCnt + 1) % 65536 = u.usartRxCnt + 1 := Nat.mod_eq_of_lt (by omega)
  unfold moved rxStore
  simp only [hbs, List.headD_cons, List.tail_cons, List.take_succ_cons, List.drop_succ_cons,
    store_cons, hmod, Nat.add_assoc, Nat.add_comm 1 n]

/-- **The TIMEOUT loop** moves as many bytes as it is told, wherever the counter stands. -/
theorem timeoutFill_eq : ∀ {n : ℕ} {u : RxState}, n ≤ u.fifo.length → u.usartRxCnt + n < 65536 →
    timeoutFill n u = (moved u n, (List.range' u.usartRxCnt n).map .store) := by
  intro n
  induction n with
  | zero =>
    intro u _ _
    simp [timeoutFill, moved]
  | succ n ih =>
    intro u hn hcnt
    have hmod : (rxStore u).usartRxCnt = u.usartRxCnt + 1 := Nat.mod_eq_of_lt (by omega)
    have hfifo : (rxStore u).fifo.length = u.fifo.length - 1 := List.length_tail
    have hrest := ih (u := rxStore u) (by omega) (by omega)
    rw [moved_rxStore hn hcnt, hmod] at hrest
    rw [timeoutFill, hrest, List.range'_succ]
    rfl

/-- **The DATA loop** stops when the buffer is full, but it looks only after a store. -/
theorem dataFill_eq : ∀ {n : ℕ} {u : RxState}, n ≤ u.fifo.length → u.usartRxCnt + 1 < 65536 →
    dataFill n u = timeoutFill (min n (max 1 (rxBufferSize - u.usartRxCnt))) u := by
  intro n
  induction n with
  | zero =>
    intro u _ _
    rw [Nat.zero_min]
    rfl
  | succ n ih =>
    intro u hn hcnt
    have hmod : (rxStore u).usartRxCnt = u.usartRxCnt + 1 := Nat.mod_eq_of_lt (by omega)
    have hfifo : (rxStore u).fifo.length = u.fifo.length - 1 := List.length_tail
    have hsize : rxBufferSize = 240 := rfl
    rw [dataFill]
    by_cases hfull : rxBufferSize ≤ (rxStore u).usartRxCnt
    · have hone : min (n + 1) (max 1 (rxBufferSize - u.usartRxCnt)) = 0 + 1 := by omega
      rw [if_pos hfull, hone]
      rfl
    · have hmore : min (n + 1) (max 1 (rxBufferSize - u.usartRxCnt)) =
          min n (max 1 (rxBufferSize - (rxStore u).usartRxCnt)) + 1 := by omega
      rw [if_neg hfull, hmore, timeoutFill, ih (by omega) (by omega)]

@[simp] theorem length_buffered (u : RxState) : (buffered u).length = u.usartRxCnt :=
  length_slice _ _ _

/-- Filling only moves bytes from the FIFO to the buffer. -/
theorem buffered_moved {u : RxState} {n : ℕ} (hn : n ≤ u.fifo.length) :
    buffered (moved u n) = buffered u ++ u.fifo.take n := by
  have hlen : (u.fifo.take n).length = n := List.length_take_of_le hn
  have h := slice_store_append u.rxSendata 0 u.usartRxCnt (u.fifo.take n)
  rw [hlen, Nat.zero_add] at h
  exact h

@[simp] theorem arrive_usartRxCnt (u : RxState) (bs : List UInt8) :
    (arrive u bs).usartRxCnt = u.usartRxCnt := rfl

@[simp] theorem arrive_fifo (u : RxState) (bs : List UInt8) : (arrive u bs).fifo = u.fifo ++ bs :=
  rfl

@[simp] theorem buffered_arrive (u : RxState) (bs : List UInt8) :
    buffered (arrive u bs) = buffered u := rfl

theorem recNum_le (u : RxState) : recNum u ≤ u.fifo.length ∧ recNum u < 256 := by
  have h : recNum u = u.fifo.length % 256 := UInt8.toNat_ofNat'
  have hle := Nat.mod_le u.fifo.length 256
  have hlt := Nat.mod_lt u.fifo.length (show 0 < 256 by omega)
  omega

theorem recNum_eq {u : RxState} (h : u.fifo.length < 256) : recNum u = u.fifo.length :=
  UInt8.toNat_ofNat_of_lt' h

/-! ### The collected bytes -/

theorem otaReplyLoop_of_not {u : RxState} (h : ¬ HasCtrlReply u) (fuel : ℕ) :
    otaReplyLoop fuel u = (u, []) := by
  cases fuel with
  | zero => rfl
  | succ fuel => rw [otaReplyLoop, if_neg h]

theorem otaReplyLoop_fifo : ∀ (fuel : ℕ) (v : RxState), (otaReplyLoop fuel v).1.fifo = v.fifo := by
  intro fuel
  induction fuel with
  | zero => exact fun _ => rfl
  | succ fuel ih =>
    intro v
    rw [otaReplyLoop]
    split_ifs
    · exact ih _
    · rfl

theorem otaReplyLoop_ne_nil {u : RxState} (h : HasCtrlReply u) :
    (otaReplyLoop u.usartRxCnt u).2 ≠ [] := by
  obtain ⟨n, hn⟩ : ∃ n, u.usartRxCnt = n + 1 :=
    Nat.exists_eq_succ_of_ne_zero fun h0 => by
      have h8 : 8 ≤ u.usartRxCnt := h.1
      omega
  rw [hn, otaReplyLoop, if_pos h]
  exact List.cons_ne_nil _ _

/-- The collected bytes pass for a V3 frame. With one byte, the second cell is left from earlier. -/
def LooksV3 (u : RxState) : Prop :=
  0 < u.usartRxCnt ∧ u.rxSendata 0 = v3FrameHead0 ∧ u.rxSendata 1 = v3FrameHead1

instance (u : RxState) : Decidable (LooksV3 u) := by unfold LooksV3; infer_instance

/-- The frame they start with is complete. -/
def CompleteV3 (u : RxState) : Prop :=
  3 ≤ u.usartRxCnt ∧ 0 < v3FrameSizeFromCmd (u.rxSendata 2) ∧
    v3FrameSizeFromCmd (u.rxSendata 2) ≤ u.usartRxCnt

instance (u : RxState) : Decidable (CompleteV3 u) := by unfold CompleteV3; infer_instance

theorem timeoutTail_ctrl {u : RxState} (h : HasCtrlReply u) : timeoutTail u =
    ({ (otaReplyLoop u.usartRxCnt u).1 with usartRxCnt := 0 },
    (otaReplyLoop u.usartRxCnt u).2) := by
  unfold timeoutTail
  dsimp only
  rw [if_pos (otaReplyLoop_ne_nil h)]

theorem timeoutTail_of_not {u : RxState} (h : ¬ HasCtrlReply u) : timeoutTail u =
    if LooksV3 u then
      if CompleteV3 u then ({ u with usartRxCnt := 0 },
        [.mcuData (slice u.rxSendata 0 (v3FrameSizeFromCmd (u.rxSendata 2)))])
      else (u, [])
    else ({ u with usartRxCnt := 0 }, [.protocolData (buffered u), .ucCmd (buffered u)]) := by
  unfold timeoutTail
  simp only [otaReplyLoop_of_not h]
  rw [if_neg (fun hne => hne rfl)]
  refine if_congr Iff.rfl ?_ rfl
  by_cases h3 : 3 ≤ u.usartRxCnt
  · rw [if_pos h3]
    refine if_congr ⟨fun hs => ⟨h3, hs⟩, fun hc => hc.2⟩ rfl rfl
  · rw [if_neg h3, if_neg (fun hc : CompleteV3 u => h3 hc.1)]

theorem not_hasCtrlReply {u : RxState} (hv : LooksV3 u) : ¬ HasCtrlReply u := by
  rintro ⟨-, h0, -⟩
  have h := hv.2.1.symm.trans h0
  exact absurd h (by decide)

/-- **What becomes of the collected bytes**: they are handed on and the counter is cleared, or they
are kept as the beginning of a V3 frame. -/
theorem timeoutTail_cases (u : RxState) : (timeoutTail u).1.fifo = u.fifo ∧
    ((timeoutTail u).1.usartRxCnt = 0 ∨ LooksV3 u ∧ ¬ CompleteV3 u ∧ timeoutTail u = (u, [])) := by
  by_cases hr : HasCtrlReply u
  · rw [timeoutTail_ctrl hr]
    exact ⟨otaReplyLoop_fifo _ u, .inl rfl⟩
  · rw [timeoutTail_of_not hr]
    by_cases hv : LooksV3 u
    · rw [if_pos hv]
      by_cases hc : CompleteV3 u
      · rw [if_pos hc]
        exact ⟨rfl, .inl rfl⟩
      · rw [if_neg hc]
        exact ⟨rfl, .inr ⟨hv, hc, rfl⟩⟩
    · rw [if_neg hv]
      exact ⟨rfl, .inl rfl⟩

/-! ### One event -/

/-- What is in the buffer when the event has moved its bytes. -/
def collected (u : RxState) : UartEvent → List UInt8
  | .timeout arrived => buffered u ++ (u.fifo ++ arrived)
  | .data arrived => buffered u ++ (u.fifo ++ arrived).dropLast

/-- The state when the event has moved its bytes. -/
def filled (u : RxState) : UartEvent → RxState
  | .timeout arrived => moved (arrive u arrived) (u.fifo ++ arrived).length
  | .data arrived => moved (arrive u arrived) ((u.fifo ++ arrived).length - 1)

/-- The bytes in the buffer, in the FIFO and on their way fit into the buffer. -/
def Within (u : RxState) (e : UartEvent) : Prop :=
  u.usartRxCnt + u.fifo.length + e.arrived.length ≤ rxBufferSize

instance (u : RxState) (e : UartEvent) : Decidable (Within u e) := by unfold Within; infer_instance

/-- Then the counter of the FIFO has its full value, and the stores stay below the end of the
buffer. -/
theorem Within.recNum_arrive {u : RxState} {e : UartEvent} (h : Within u e) :
    recNum (arrive u e.arrived) = (u.fifo ++ e.arrived).length ∧
      u.usartRxCnt + (u.fifo ++ e.arrived).length ≤ rxBufferSize := by
  have hsize : rxBufferSize = 240 := rfl
  have hlen : (u.fifo ++ e.arrived).length = u.fifo.length + e.arrived.length := List.length_append
  unfold Within at h
  exact ⟨recNum_eq (by rw [arrive_fifo]; omega), by omega⟩

theorem rxStep_timeout {u : RxState} {arrived : List UInt8} (h : Within u (.timeout arrived)) :
    rxStep u (.timeout arrived) =
      ((timeoutTail (filled u (.timeout arrived))).1,
        (List.range' u.usartRxCnt (u.fifo ++ arrived).length).map RxOut.store ++
          (timeoutTail (filled u (.timeout arrived))).2.map RxOut.call) := by
  have hsize : rxBufferSize = 240 := rfl
  obtain ⟨hrec, hbound⟩ : recNum (arrive u arrived) = (u.fifo ++ arrived).length ∧
      u.usartRxCnt + (u.fifo ++ arrived).length ≤ rxBufferSize := h.recNum_arrive
  show (let r := timeoutFill (recNum (arrive u arrived)) (arrive u arrived)
    let t := timeoutTail r.1
    (t.1, r.2 ++ t.2.map RxOut.call)) = _
  rw [hrec, timeoutFill_eq (n := (u.fifo ++ arrived).length) le_rfl
    (by rw [arrive_usartRxCnt]; omega)]
  rfl

theorem rxStep_data {u : RxState} {arrived : List UInt8} (h : Within u (.data arrived)) :
    rxStep u (.data arrived) =
      (filled u (.data arrived),
        (List.range' u.usartRxCnt ((u.fifo ++ arrived).length - 1)).map RxOut.store) := by
  have hsize : rxBufferSize = 240 := rfl
  obtain ⟨hrec, hbound⟩ : recNum (arrive u arrived) = (u.fifo ++ arrived).length ∧
      u.usartRxCnt + (u.fifo ++ arrived).length ≤ rxBufferSize := h.recNum_arrive
  show (if 1 < recNum (arrive u arrived) then
    dataFill (recNum (arrive u arrived) - 1) (arrive u arrived) else (arrive u arrived, [])) = _
  by_cases hone : 1 < (u.fifo ++ arrived).length
  · rw [hrec, if_pos hone, dataFill_eq (by rw [arrive_fifo]; omega)
      (by rw [arrive_usartRxCnt]; omega),
      arrive_usartRxCnt, min_eq_left (by omega),
      timeoutFill_eq (by rw [arrive_fifo]; omega) (by rw [arrive_usartRxCnt]; omega)]
    rfl
  · have hzero : (u.fifo ++ arrived).length - 1 = 0 := by omega
    have hsame : filled u (.data arrived) = arrive u arrived := by
      show moved (arrive u arrived) ((u.fifo ++ arrived).length - 1) = _
      rw [hzero, moved_zero]
    rw [hrec, if_neg hone, hsame, hzero]
    rfl

theorem buffered_filled (u : RxState) (e : UartEvent) : buffered (filled u e) = collected u e := by
  cases e with
  | timeout arrived =>
    have h := buffered_moved (u := arrive u arrived) (n := (u.fifo ++ arrived).length) le_rfl
    rwa [arrive_fifo, List.take_length, buffered_arrive] at h
  | data arrived =>
    have h := buffered_moved (u := arrive u arrived) (n := (u.fifo ++ arrived).length - 1)
      (Nat.sub_le _ _)
    rwa [arrive_fifo, ← List.dropLast_eq_take, buffered_arrive] at h

theorem byteAt_buffered {u : RxState} {i : ℕ} (h : i < u.usartRxCnt) :
    byteAt (buffered u) i = u.rxSendata i := by
  have hlen : i < (buffered u).length := by rwa [length_buffered]
  rw [byteAt, List.getD_eq_getElem _ _ hlen]
  exact (getElem_slice hlen).trans (by rw [Nat.zero_add])

theorem looksV3_iff {u : RxState} (h : 2 ≤ u.usartRxCnt) :
    LooksV3 u ↔ (buffered u).take 2 = [v3FrameHead0, v3FrameHead1] := by
  obtain ⟨n, hn⟩ : ∃ n, u.usartRxCnt = n + 2 := ⟨u.usartRxCnt - 2, by omega⟩
  have htwo : (buffered u).take 2 = [u.rxSendata 0, u.rxSendata 1] := by
    unfold buffered
    rw [hn, slice_succ, slice_succ]
    rfl
  rw [htwo, List.cons_eq_cons, List.cons_eq_cons]
  constructor
  · rintro ⟨-, h0, h1⟩
    exact ⟨h0, h1, rfl⟩
  · rintro ⟨h0, h1, -⟩
    exact ⟨by omega, h0, h1⟩

/-! ### Calls -/

theorem otaReplyLoop_calls :
    ∀ (fuel : ℕ) (v : RxState), ∀ c ∈ (otaReplyLoop fuel v).2, ∃ cmd, c = .ctrlReply cmd := by
  intro fuel
  induction fuel with
  | zero => exact fun _ c hc => absurd hc List.not_mem_nil
  | succ fuel ih =>
    intro v c hc
    rw [otaReplyLoop] at hc
    split_ifs at hc
    · rcases List.mem_cons.mp hc with h | h
      · exact ⟨_, h⟩
      · exact ih _ c h
    · cases hc

theorem timeoutFill_outs :
    ∀ (n : ℕ) (u : RxState), ∀ o ∈ (timeoutFill n u).2, ∃ i, o = .store i := by
  intro n
  induction n with
  | zero => exact fun _ o ho => absurd ho List.not_mem_nil
  | succ n ih =>
    intro u o ho
    rcases List.mem_cons.mp ho with h | h
    · exact ⟨_, h⟩
    · exact ih _ o h

theorem dataFill_outs : ∀ (n : ℕ) (u : RxState), ∀ o ∈ (dataFill n u).2, ∃ i, o = .store i := by
  intro n
  induction n with
  | zero => exact fun _ o ho => absurd ho List.not_mem_nil
  | succ n ih =>
    intro u o ho
    rw [dataFill] at ho
    split_ifs at ho
    · exact ⟨_, List.mem_singleton.mp ho⟩
    · rcases List.mem_cons.mp ho with h | h
      · exact ⟨_, h⟩
      · exact ih _ o h

/-- Calls are only made at the end of a TIMEOUT. -/
theorem exists_tail {u : RxState} {e : UartEvent} {c : RxCall} (h : .call c ∈ (rxStep u e).2) :
    ∃ v, c ∈ (timeoutTail v).2 := by
  cases e with
  | timeout arrived =>
    rcases List.mem_append.mp h with hfill | htail
    · obtain ⟨i, hi⟩ := timeoutFill_outs _ _ _ hfill
      cases hi
    · obtain ⟨c', hc', heq⟩ := List.mem_map.mp htail
      obtain rfl := RxOut.call.inj heq
      exact ⟨_, hc'⟩
  | data arrived =>
    have hdata : .call c ∈ (if 1 < recNum (arrive u arrived) then
        dataFill (recNum (arrive u arrived) - 1) (arrive u arrived)
          else (arrive u arrived, [])).2 := h
    split_ifs at hdata
    · obtain ⟨i, hi⟩ := dataFill_outs _ _ _ hdata
      cases hi
    · cases hdata

theorem mcuData_of_tail {v : RxState} {data : List UInt8} (h : .mcuData data ∈ (timeoutTail v).2) :
    LooksV3 v ∧ CompleteV3 v ∧ data = slice v.rxSendata 0 (v3FrameSizeFromCmd (v.rxSendata 2)) := by
  by_cases hr : HasCtrlReply v
  · rw [timeoutTail_ctrl hr] at h
    obtain ⟨cmd, hcmd⟩ := otaReplyLoop_calls _ _ _ h
    cases hcmd
  · rw [timeoutTail_of_not hr] at h
    split_ifs at h with hv hc
    · exact ⟨hv, hc, RxCall.mcuData.inj (List.mem_singleton.mp h)⟩
    · cases h
    · simp at h

end BleHidUart.Uart.Receiver
