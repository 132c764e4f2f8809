import BleHidUart.Uart.Receiver

/-!
# The receive buffer over a run

* `stores_bounded_iff`: the stores stay inside `RX_Sendata` exactly when no TIMEOUT finds more bytes
  than the buffer holds and no DATA event moves a byte into a full buffer.
* `receiver_clean_iff`: the buffer only ever keeps the beginning of a V3 frame, and is never stuck,
  exactly when no frame with an unknown command is collected.
-/

namespace BleHidUart.Uart.Buffer

open BleHidUart.Board BleHidUart.Lib.Memory BleHidUart.Lib.Run BleHidUart.Lib.Word
open BleHidUart.Uart.Receiver BleHidUart.V3.Parser

/-! ### Bounds -/

/-- A store inside of `RX_Sendata`. -/
def InBounds : RxOut → Prop
  | .store index => index < rxBufferSize
  | .call _ => True

instance : DecidablePred InBounds
  | .store index => inferInstanceAs (Decidable (index < rxBufferSize))
  | .call _ => .isTrue trivial

/-- The event stores inside of `RX_Sendata` and leaves the counter in its bounds. -/
def Bounded (u : RxState) (e : UartEvent) : Prop :=
  (∀ o ∈ (rxStep u e).2, InBounds o) ∧ (rxStep u e).1.usartRxCnt ≤ rxBufferSize

instance (u : RxState) (e : UartEvent) : Decidable (Bounded u e) :=
  inferInstanceAs (Decidable (_ ∧ _))

/-- What the event moves fits: all of the FIFO on a TIMEOUT; on a DATA event one byte, if any is
moved. -/
def Fits (u : RxState) : UartEvent → Prop
  | .timeout arrived => u.usartRxCnt + recNum (arrive u arrived) ≤ rxBufferSize
  | .data arrived => recNum (arrive u arrived) ≤ 1 ∨ u.usartRxCnt < rxBufferSize

theorem forall_stores (P : RxOut → Prop) (a n : ℕ) :
    (∀ o ∈ (List.range' a n).map RxOut.store, P o) ↔ ∀ k, k < n → P (.store (a + k)) := by
  constructor
  · intro h k hk
    exact h _ (List.mem_map.mpr ⟨a + k, List.mem_range'_1.mpr (by omega), rfl⟩)
  · intro h o ho
    obtain ⟨i, hi, rfl⟩ := List.mem_map.mp ho
    obtain ⟨h1, h2⟩ := List.mem_range'_1.mp hi
    have hk := h (i - a) (by omega)
    rwa [Nat.add_sub_cancel' h1] at hk

theorem stores_inBounds_iff {a n : ℕ} (ha : a ≤ rxBufferSize) :
    (∀ o ∈ (List.range' a n).map RxOut.store, InBounds o) ↔ a + n ≤ rxBufferSize := by
  rw [forall_stores]
  constructor
  · intro h
    by_cases hn : n = 0
    · omega
    · have hlast : a + (n - 1) < rxBufferSize := h (n - 1) (by omega)
      omega
  · intro h k hk
    show a + k < rxBufferSize
    omega

/-- **A TIMEOUT from a counter in its bounds.** -/
theorem bounded_timeout {u : RxState} (hu : u.usartRxCnt ≤ rxBufferSize) (arrived : List UInt8) :
    Bounded u (.timeout arrived) ↔ Fits u (.timeout arrived) := by
  have hsize : rxBufferSize = 240 := rfl
  have hrec := recNum_le (arrive u arrived)
  have hfill := timeoutFill_eq hrec.1 (by rw [arrive_usartRxCnt]; omega)
  have htail := (timeoutTail_cases (timeoutFill (recNum (arrive u arrived)) (arrive u arrived)).1).2
  have hcnt : (timeoutFill (recNum (arrive u arrived)) (arrive u arrived)).1.usartRxCnt =
      u.usartRxCnt + recNum (arrive u arrived) := by
    rw [hfill]
    rfl
  have hcalls : ∀ o ∈ (timeoutTail (timeoutFill (recNum (arrive u arrived))
      (arrive u arrived)).1).2.map RxOut.call, InBounds o := by
    intro o ho
    obtain ⟨c, -, rfl⟩ := List.mem_map.mp ho
    trivial
  have hstores : (timeoutFill (recNum (arrive u arrived)) (arrive u arrived)).2 =
      (List.range' u.usartRxCnt (recNum (arrive u arrived))).map RxOut.store := by
    rw [hfill]
    rfl
  constructor
  · rintro ⟨hout, -⟩
    refine (stores_inBounds_iff hu).mp fun o ho => hout o ?_
    rw [← hstores] at ho
    exact List.mem_append_left _ ho
  · intro hfit
    have hle : u.usartRxCnt + recNum (arrive u arrived) ≤ rxBufferSize := hfit
    refine ⟨fun o ho => ?_, ?_⟩
    · rcases List.mem_append.mp ho with h | h
      · rw [hstores] at h
        exact (stores_inBounds_iff hu).mpr hle o h
      · exact hcalls o h
    · show (timeoutTail _).1.usartRxCnt ≤ rxBufferSize
      rcases htail with h0 | ⟨-, -, hkept⟩
      · rw [h0]
        exact Nat.zero_le _
      · rw [hkept, hcnt]
        exact hle

/-- **A DATA event from a counter in its bounds.** -/
theorem bounded_data {u : RxState} (hu : u.usartRxCnt ≤ rxBufferSize) (arrived : List UInt8) :
    Bounded u (.data arrived) ↔ Fits u (.data arrived) := by
  have hsize : rxBufferSize = 240 := rfl
  have hrec := recNum_le (arrive u arrived)
  by_cases hone : 1 < recNum (arrive u arrived)
  · have hstep : rxStep u (.data arrived) =
        dataFill (recNum (arrive u arrived) - 1) (arrive u arrived) := if_pos hone
    rw [dataFill_eq (by omega) (by rw [arrive_usartRxCnt]; omega), arrive_usartRxCnt,
      timeoutFill_eq (by omega) (by rw [arrive_usartRxCnt]; omega), arrive_usartRxCnt] at hstep
    unfold Bounded Fits
    rw [hstep]
    dsimp only
    rw [stores_inBounds_iff hu]
    show _ ∧ u.usartRxCnt + _ ≤ rxBufferSize ↔ _
    omega
  · have hstep : rxStep u (.data arrived) = (arrive u arrived, []) := if_neg hone
    unfold Bounded Fits
    rw [hstep]
    refine ⟨fun _ => .inl (by omega), fun _ => ⟨fun o ho => ?_, hu⟩⟩
    cases ho

/-- **The stores stay in bounds along a run** exactly when every event fits. -/
theorem stores_bounded_iff (events : List UartEvent) :
    EachStep rxStep Bounded {} events ↔ EachStep rxStep Fits {} events := by
  have hstep : ∀ (u : RxState) (e : UartEvent), u.usartRxCnt ≤ rxBufferSize → True → Bounded u e →
      (rxStep u e).1.usartRxCnt ≤ rxBufferSize := fun u e _ _ h => h.2
  refine eachStep_congr_guard hstep (fun u e hu _ => ?_) (Nat.zero_le _) (eachStep_true _ _)
  cases e with
  | timeout arrived => exact bounded_timeout hu arrived
  | data arrived => exact bounded_data hu arrived

/-- **A store outside of the buffer**: an unknown command keeps the buffer, and the TIMEOUT loop
does not look at the counter. -/
theorem not_stores_bounded : ¬ ∀ events, EachStep rxStep Bounded {} events := by
  intro hall
  have h := hall (List.replicate 16 (.timeout (0x53 :: 0x35 :: List.replicate 14 0x22)))
  exact absurd h (by decide +kernel)

/-! ### A buffer that is never delivered -/

/-- The bytes in the buffer, in the FIFO and on their way stay below the size of the buffer. -/
def Below (u : RxState) (e : UartEvent) : Prop :=
  u.usartRxCnt + u.fifo.length + e.arrived.length < rxBufferSize

instance (u : RxState) (e : UartEvent) : Decidable (Below u e) := by unfold Below; infer_instance

/-- A proper prefix of a V3 frame that can still be completed. -/
def Completable (bs : List UInt8) : Prop :=
  bs ≠ [] ∧ bs.take 2 <+: [v3FrameHead0, v3FrameHead1] ∧
    (bs.length < 3 ∨ bs.length < v3FrameSizeFromCmd (byteAt bs 2))

/-- The head of a V3 frame with a command that `V3_frame_size_from_cmd` does not know. -/
def UnknownFrame (bs : List UInt8) : Prop :=
  bs.take 2 = [v3FrameHead0, v3FrameHead1] ∧ 3 ≤ bs.length ∧ v3FrameSizeFromCmd (byteAt bs 2) = 0

instance (bs : List UInt8) : Decidable (UnknownFrame bs) := by unfold UnknownFrame; infer_instance

/-- The buffer as it stands, with an empty FIFO. -/
def alone (u : RxState) : RxState := { u with fifo := [] }

/-- Whatever comes after these bytes, they are not delivered. -/
def Wedged (u : RxState) : Prop :=
  ∀ es, EachStep rxStep Below (alone u) es →
    (final rxStep (alone u) es).usartRxCnt ≠ 0

/-- After a TIMEOUT the buffer is empty or can be completed, and after any event it is not stuck. -/
def Clean (u : RxState) (e : UartEvent) : Prop :=
  ((∃ arrived, e = .timeout arrived) → (rxStep u e).1.usartRxCnt = 0 ∨
    Completable (buffered (rxStep u e).1)) ∧ ¬ Wedged (rxStep u e).1

variable {u : RxState} {e : UartEvent}

theorem Below.within (h : Below u e) : Within u e := Nat.le_of_lt h

theorem UnknownFrame.append {bs : List UInt8} (h : UnknownFrame bs) (cs : List UInt8) :
    UnknownFrame (bs ++ cs) := by
  obtain ⟨hhead, hlen, hcmd⟩ := h
  refine ⟨?_, ?_, ?_⟩
  · rwa [List.take_append_of_le_length (by omega)]
  · rw [List.length_append]
    omega
  · rwa [byteAt, List.getD_append _ _ _ _ (by omega)]

theorem unknownFrame_collected (h : UnknownFrame (buffered u)) (e : UartEvent) :
    UnknownFrame (collected u e) := by
  cases e with
  | timeout arrived => exact h.append _
  | data arrived => exact h.append _

/-- A TIMEOUT keeps such a frame: it is neither complete nor legacy data. -/
theorem timeoutTail_unknown (h : UnknownFrame (buffered u)) : timeoutTail u = (u, []) := by
  obtain ⟨hhead, hlen, hcmd⟩ := h
  rw [length_buffered] at hlen
  rw [byteAt_buffered (by omega)] at hcmd
  have hv : LooksV3 u := (looksV3_iff (by omega)).mpr hhead
  have hc : ¬ CompleteV3 u := fun hc => absurd hcmd (Nat.pos_iff_ne_zero.mp hc.2.1)
  rw [timeoutTail_of_not (not_hasCtrlReply hv), if_pos hv, if_neg hc]

theorem unknownFrame_step (hb : Below u e) (h : UnknownFrame (collected u e)) :
    UnknownFrame (buffered (rxStep u e).1) := by
  cases e with
  | timeout arrived =>
    rw [rxStep_timeout hb.within]
    rw [← buffered_filled] at h
    dsimp only
    rwa [timeoutTail_unknown h]
  | data arrived =>
    rw [rxStep_data hb.within]
    rwa [← buffered_filled] at h

/-- **An unknown command wedges the receiver.** -/
theorem wedged_of_unknownFrame (h : UnknownFrame (buffered u)) : Wedged u := by
  intro es hes hzero
  have hstep : ∀ v e, UnknownFrame (buffered v) → Below v e →
      UnknownFrame (buffered (rxStep v e).1) :=
    fun v e hv hb => unknownFrame_step hb (unknownFrame_collected hv e)
  have hstart : UnknownFrame (buffered (alone u)) := h
  have hfinal := final_induction hstep hstart hes
  have hlen := hfinal.2.1
  rw [length_buffered] at hlen
  omega

theorem v3FrameSizeFromCmd_le (cmd : UInt8) : v3FrameSizeFromCmd cmd ≤ 20 := by
  unfold v3FrameSizeFromCmd
  split_ifs <;> decide

theorem frameSize_ne_zero (hv : LooksV3 u) (h3 : 3 ≤ u.usartRxCnt)
    (h : ¬ UnknownFrame (buffered u)) : v3FrameSizeFromCmd (u.rxSendata 2) ≠ 0 := by
  have hhead := (looksV3_iff (by omega)).mp hv
  intro hzero
  exact h ⟨hhead, by rwa [length_buffered], by rwa [byteAt_buffered (by omega)]⟩

/-- Bytes with which the next TIMEOUT does not keep the buffer. -/
theorem exists_release (hcnt : u.usartRxCnt < rxBufferSize) (h : ¬ UnknownFrame (buffered u)) :
    ∃ bs : List UInt8, u.usartRxCnt + bs.length < rxBufferSize ∧
      ¬ (LooksV3 (filled (alone u) (.timeout bs)) ∧
        ¬ CompleteV3 (filled (alone u) (.timeout bs))) := by
  have hsize : rxBufferSize = 240 := rfl
  by_cases hkept : LooksV3 u ∧ ¬ CompleteV3 u
  swap
  · refine ⟨[], hcnt, ?_⟩
    have hsame : filled (alone u) (.timeout []) = (alone u) := moved_zero _
    rw [hsame]
    exact hkept
  obtain ⟨hv, hc⟩ := hkept
  have hold : ∀ bs i, i < u.usartRxCnt →
      (filled (alone u) (.timeout bs)).rxSendata i = u.rxSendata i :=
    fun bs i hi => store_of_lt _ hi
  have hnew : ∀ n i, u.usartRxCnt ≤ i → i < u.usartRxCnt + n →
      (filled (alone u) (.timeout (List.replicate n 0))).rxSendata i = 0 := by
    intro n i hle hi
    obtain ⟨k, rfl⟩ := Nat.exists_eq_add_of_le hle
    have hlt : k < ((List.replicate n (0 : UInt8)).take
        (List.replicate n (0 : UInt8)).length).length := by
      rw [List.take_length, List.length_replicate]
      omega
    refine (store_add hlt).trans ?_
    rw [List.getElem_take, List.getElem_replicate]
  have hfull : ∀ n, (filled (alone u) (.timeout (List.replicate n 0))).usartRxCnt =
      u.usartRxCnt + n := fun n => congrArg (u.usartRxCnt + ·) List.length_replicate
  by_cases h1 : u.usartRxCnt = 1
  · -- the second byte is not the one that happens to be in the cell
    refine ⟨List.replicate 1 0, by rw [List.length_replicate]; omega, fun hlooks => ?_⟩
    have hbyte := hnew 1 1 (by omega) (by omega)
    have hhead := hlooks.1.2.2.symm.trans hbyte
    exact absurd hhead (by decide)
  by_cases h2 : u.usartRxCnt = 2
  · refine ⟨List.replicate 18 0, by rw [List.length_replicate]; omega, fun hkeep => hkeep.2 ?_⟩
    have hbyte := hnew 18 2 (by omega) (by omega)
    have hcmd : v3FrameSizeFromCmd ((filled (alone u)
        (.timeout (List.replicate 18 0))).rxSendata 2) = 20 := by
      rw [hbyte]
      rfl
    unfold CompleteV3
    rw [hcmd, hfull]
    omega
  · have hpos := hv.1
    have hcmd := frameSize_ne_zero hv (by omega) h
    have hmore : u.usartRxCnt < v3FrameSizeFromCmd (u.rxSendata 2) :=
      Nat.lt_of_not_le fun hle => hc ⟨by omega, by omega, hle⟩
    have hle := v3FrameSizeFromCmd_le (u.rxSendata 2)
    refine ⟨List.replicate (v3FrameSizeFromCmd (u.rxSendata 2) - u.usartRxCnt) 0,
      by rw [List.length_replicate]; omega, fun hkeep => hkeep.2 ?_⟩
    unfold CompleteV3
    rw [hold _ 2 (by omega), hfull]
    omega

/-- **Nothing else wedges it.** -/
theorem not_wedged (hcnt : u.usartRxCnt < rxBufferSize) (h : ¬ UnknownFrame (buffered u)) :
    ¬ Wedged u := by
  obtain ⟨bs, hbs, hfree⟩ := exists_release hcnt h
  intro hw
  have hb : Below (alone u) (.timeout bs) := by
    show u.usartRxCnt + 0 + bs.length < rxBufferSize
    omega
  have hstep := hw [.timeout bs] ⟨hb, trivial⟩
  rw [final_cons, final_nil, rxStep_timeout hb.within] at hstep
  rcases (timeoutTail_cases (filled (alone u) (.timeout bs))).2 with h0 | ⟨hv, hc, -⟩
  · exact hstep h0
  · exact hfree ⟨hv, hc⟩

/-- What a TIMEOUT keeps is the beginning of a frame. -/
theorem completable_of_kept (hv : LooksV3 u) (hc : ¬ CompleteV3 u)
    (h : ¬ UnknownFrame (buffered u)) : Completable (buffered u) := by
  have hpos := hv.1
  refine ⟨fun hnil => ?_, ?_, ?_⟩
  · have hlen := length_buffered u
    rw [hnil, List.length_nil] at hlen
    omega
  · by_cases h1 : u.usartRxCnt = 1
    · have hone : buffered u = [u.rxSendata 0] := by
        unfold buffered
        rw [h1, slice_succ, slice_zero]
      rw [hone, hv.2.1]
      exact ⟨[v3FrameHead1], rfl⟩
    · have htake := (looksV3_iff (by omega)).mp hv
      exact ⟨[], by rw [htake, List.append_nil]⟩
  · by_cases h3 : 3 ≤ u.usartRxCnt
    · rw [length_buffered, byteAt_buffered (by omega)]
      have hcmd := frameSize_ne_zero hv h3 h
      exact .inr (Nat.lt_of_not_le fun hle => hc ⟨h3, by omega, hle⟩)
    · rw [length_buffered]
      exact .inl (by omega)

/-- **One event.** -/
theorem clean_iff (hb : Below u e) : Clean u e ↔ ¬ UnknownFrame (collected u e) := by
  constructor
  · intro hclean hun
    exact hclean.2 (wedged_of_unknownFrame (unknownFrame_step hb hun))
  · intro hun
    have hcnt : (filled u e).usartRxCnt < rxBufferSize := by
      rw [← length_buffered, buffered_filled]
      have hlen : (collected u e).length ≤ u.usartRxCnt + (u.fifo.length + e.arrived.length) := by
        cases e <;> simp [collected, UartEvent.arrived]
      have hlt : u.usartRxCnt + u.fifo.length + e.arrived.length < rxBufferSize := hb
      omega
    rw [← buffered_filled] at hun
    cases e with
    | data arrived =>
      unfold Clean
      rw [rxStep_data hb.within]
      refine ⟨fun hevent => ?_, not_wedged hcnt hun⟩
      obtain ⟨bs, hbs⟩ := hevent
      cases hbs
    | timeout arrived =>
      unfold Clean
      rw [rxStep_timeout hb.within]
      dsimp only
      rcases (timeoutTail_cases (filled u (.timeout arrived))).2 with h0 | ⟨hv, hc, hkept⟩
      · refine ⟨fun _ => .inl h0, not_wedged (by rw [h0]; decide) fun hfalse => ?_⟩
        have hlen := hfalse.2.1
        rw [length_buffered, h0] at hlen
        omega
      · rw [hkept]
        exact ⟨fun _ => .inr (completable_of_kept hv hc hun), not_wedged hcnt hun⟩

/-- **The receiver stays clean along a run** exactly when no unknown frame is collected. -/
theorem receiver_clean_iff {events : List UartEvent} (h : EachStep rxStep Below {} events) :
    EachStep rxStep Clean {} events ↔
      EachStep rxStep (fun u e => ¬ UnknownFrame (collected u e)) {} events := by
  have hstep : ∀ (u : RxState) (e : UartEvent), True → Below u e → Clean u e → True :=
    fun _ _ _ _ _ => trivial
  exact eachStep_congr_guard hstep (fun u e _ hb => clean_iff hb) trivial h

/-- A reply in two parts, with a pause inside of it, and legacy data after it. -/
theorem receiver_clean_reply : EachStep rxStep Clean {}
    [.data [0x53, 0x35, 0x0F], .timeout [0x02], .timeout (List.replicate 16 0),
    .timeout [0x5A, 0xA5]] :=
  (receiver_clean_iff (by decide +kernel)).mpr (by decide +kernel)

/-- **A wedged receiver**: the command `22` has no size, and the buffer is kept for good. -/
theorem not_receiver_clean : ¬ ∀ events, EachStep rxStep Below {} events →
    EachStep rxStep Clean {} events := by
  intro hall
  have h := hall [.timeout [0x53, 0x35, 0x22]] (by decide)
  exact h.1.2 (wedged_of_unknownFrame (by decide +kernel))

end BleHidUart.Uart.Buffer
