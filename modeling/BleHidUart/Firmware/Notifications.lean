import BleHidUart.Lib.Framing
import BleHidUart.Firmware.Joint

/-!
# The notifications of the two OTA sides

Every builder writes a frame into a buffer of its own and hands it to `bt_ven_notify` with a length,
which copies that many bytes from the buffer on: past its end they are what the stack holds
(`passed`). A notification is framed if the length is the byte `3` of the frame and no longer than
the buffer (`Framed`); then the app takes the concatenation of the notifications apart by that byte.

Five builders pass the length they write into the byte `3`. The two retry ACKs pass the length of a
data ACK for a frame of five bytes: `wellFramed_iff`.
-/

namespace BleHidUart.Firmware.Notifications

open BleHidUart.Board BleHidUart.CtrlOta.Metadata BleHidUart.CtrlOta.Machine
open BleHidUart.CtrlOta.Moves BleHidUart.Firmware.Joint BleHidUart.Lib.Framing BleHidUart.Lib.Memory
open BleHidUart.Lib.Run BleHidUart.Lib.Word BleHidUart.Ota.Handlers BleHidUart.Ota.Moves

/-! ### Framed notifications -/

/-- The bytes `bt_ven_notify` copies, from a stack that holds the buffer at its address `0`. -/
def passed (stack : ℕ → UInt8) (n : List UInt8 × ℕ) : List UInt8 := slice (store stack 0 n.1) 0 n.2

/-- The notification begins with the head, has the length passed in its byte `3`, and passes bytes
that are written in its buffer. -/
structure Framed (n : List UInt8 × ℕ) : Prop where
  head : n.1.take 2 = [v3FrameHead0, v3FrameHead1]
  hasLength : 3 < n.2
  length : (byteAt n.1 3).toNat = n.2
  written : n.2 ≤ n.1.length

/-- A receiver that looks for the head and takes as many bytes as the byte `3` says. -/
def byLength (xs : List UInt8) : Scan (List UInt8) :=
  let n := (byteAt xs 3).toNat
  if xs.take 2 = [v3FrameHead0, v3FrameHead1] ∧ 3 < n ∧ n ≤ xs.length then
    .packet n (some (xs.take n))
  else .skip

/-- Every notification is framed, and the receiver gets back what was sent, whatever the stack holds
at each of the calls. -/
structure WellFramed (ns : List (List UInt8 × ℕ)) : Prop where
  framed : ∀ n ∈ ns, Framed n
  deframed : ∀ stack : ℕ → ℕ → UInt8,
    deframe byLength (ns.mapIdx fun k n => passed (stack k) n).flatten =
      ns.mapIdx fun k n => passed (stack k) n

theorem sound_byLength : Sound byLength id := by
  intro xs n out h
  simp only [byLength] at h
  split_ifs at h with hc
  cases h
  refine ⟨by omega, hc.2.2, ?_⟩
  rintro k hk
  exact (Option.mem_some_iff.mp hk).symm

theorem Framed.passed_eq {n : List UInt8 × ℕ} (h : Framed n) (stack : ℕ → UInt8) :
    passed stack n = n.1.take n.2 := by
  have hw := h.written
  refine List.ext_getElem ?_ fun i h1 h2 => ?_
  · rw [passed, length_slice, List.length_take]
    omega
  · rw [List.length_take] at h2
    rw [List.getElem_take]
    exact (getElem_slice h1).trans (store_add (by omega))

/-- The receiver takes a framed notification as it is, whatever follows. -/
theorem Framed.recognises {n : List UInt8 × ℕ} (h : Framed n) (stack : ℕ → UInt8) :
    Recognises byLength (passed stack n) (passed stack n) := by
  obtain ⟨hhead, h3, hlen, hw⟩ := h
  rw [Framed.passed_eq ⟨hhead, h3, hlen, hw⟩]
  have hlength : (n.1.take n.2).length = n.2 := by
    rw [List.length_take]
    omega
  refine ⟨List.ne_nil_of_length_pos (by omega), fun rest => ?_⟩
  have hbyte : byteAt (n.1.take n.2 ++ rest) 3 = byteAt n.1 3 := by
    rw [byteAt, List.getD_append _ _ _ _ (by omega)]
    exact byteAt_take h3
  have htake : (n.1.take n.2 ++ rest).take 2 = [v3FrameHead0, v3FrameHead1] := by
    rw [List.take_append_of_le_length (by omega), List.take_take, min_eq_left (by omega), hhead]
  have hall : (n.1.take n.2 ++ rest).take n.2 = n.1.take n.2 := by
    rw [List.take_append_of_le_length (by omega), List.take_take, min_self]
  have hle : n.2 ≤ (n.1.take n.2 ++ rest).length := by
    rw [List.length_append]
    omega
  simp only [byLength, hbyte, hlen, hlength, hall]
  exact if_pos ⟨htake, h3, hle⟩

theorem wellFramed_iff_forall (ns : List (List UInt8 × ℕ)) :
    WellFramed ns ↔ ∀ n ∈ ns, Framed n := by
  refine ⟨WellFramed.framed, fun h => ⟨h, fun stack => ?_⟩⟩
  refine deframe_flatten sound_byLength fun b hb => ?_
  obtain ⟨k, hk, rfl⟩ := List.mem_mapIdx.mp hb
  exact (h _ (List.getElem_mem hk)).recognises (stack k)

/-! ### The builders -/

theorem framed_of_take {data : List UInt8} {len : ℕ} {cmd : UInt8}
    (h : data.take 4 = [v3FrameHead0, v3FrameHead1, cmd, UInt8.ofNat len])
    (hlen : data.length = len) (h3 : 3 < len) (hle : len < 256) :
    ∀ n ∈ notifications [.notify data len], Framed n := by
  intro n hn
  rw [List.mem_singleton.mp hn]
  have hhead : data.take 2 = (data.take 4).take 2 := by rw [List.take_take, min_eq_left (by omega)]
  have hbyte : byteAt data 3 = UInt8.ofNat len := by
    rw [← byteAt_take (show 3 < 4 by omega), h]
    rfl
  refine ⟨by rw [hhead, h]; rfl, h3, ?_, hlen.ge⟩
  rw [hbyte]
  exact UInt8.toNat_ofNat_of_lt' hle

/-- The frame is one of the two whose answer is passed with a length of its own. -/
def IsRetry : Stimulus → Prop
  | .app (.packageRetry _) | .app (.eraseRetry _) => True
  | .app (.start _) | .app (.data _) | .ctrl _ => False

/-- The two retry ACKs pass two bytes more than they have. -/
theorem not_framed_retry (cmd result : UInt8) :
    ¬ Framed ([v3FrameHead0, v3FrameHead1, cmd, UInt8.ofNat otaFrameFlashEraseRspSize, result],
      otaFrameDataAckSize) :=
  fun h => absurd h.written (by simp [otaFrameDataAckSize])

theorem framed_dataAck (seq : UInt16) (result : UInt8) :
    ∀ n ∈ notifications [otaSendDataAck seq result], Framed n :=
  framed_of_take rfl rfl (by decide) (by decide)

theorem framed_startResponse (result : UInt8) :
    ∀ n ∈ notifications [otaSendStartResponse result], Framed n :=
  framed_of_take rfl rfl (by decide) (by decide)

theorem framed_flashEraseDone (result : UInt8) :
    ∀ n ∈ notifications [otaSendFlashEraseDone result], Framed n :=
  framed_of_take rfl rfl (by decide) (by decide)

theorem framed_progress (sent total : UInt32) :
    ∀ n ∈ notifications [ctrlOtaNotifyProgress sent total], Framed n :=
  framed_of_take rfl rfl (by decide) (by decide)

theorem framed_result (result : UInt8) :
    ∀ n ∈ notifications [ctrlOtaNotifyResult result], Framed n :=
  framed_of_take rfl rfl (by decide) (by decide)

/-! ### The handlers -/

theorem framed_app {c c' : OtaContext} {f : AppFrame} {fx : List Effect} (hm : OtaMove c f c' fx)
    (hf : ¬ IsRetry (.app f)) : ∀ n ∈ notifications fx, Framed n := by
  cases hm with
  | startIgnored | dataIgnored => exact fun n hn => absurd hn List.not_mem_nil
  | startRefused =>
    rw [notifications_append, notifications_writeFlag]
    exact framed_startResponse _
  | startAccepted =>
    rw [notifications_append, notifications_writeFlag, List.nil_append, ← List.singleton_append,
      notifications_append]
    exact List.forall_mem_append.mpr ⟨framed_startResponse _, framed_flashEraseDone _⟩
  | dataResend f seq | dataAborted f seq => exact framed_dataAck seq _
  | dataContinued f | dataMismatched f =>
    rw [notifications_append, notifications_eepromWrite]
    exact framed_dataAck (seqOf f) _
  | dataCommitted f =>
    rw [notifications_append, notifications_eepromWrite, ← List.singleton_append,
      notifications_append, notifications_readyflag, List.append_nil]
    exact framed_dataAck (seqOf f) _
  | packageRetried | packageRetryRefused | eraseRetried | eraseRetryRefused =>
    exact absurd trivial hf

theorem framed_ctrl {g g' : CtrlOtaCtx} {e : Eeprom} {i : CtrlEvent} {fx : List Effect}
    (hm : CtrlMove g e i g' fx) : ∀ n ∈ notifications fx, Framed n := by
  cases hm with
  | stay | request | finish | send | timeout | restart | confirm | erased =>
    exact fun n hn => absurd hn List.not_mem_nil
  | ackLast | ackMore => exact framed_progress _ _
  | failed | crcFail | refused => exact framed_result _
  | success =>
    rw [← List.singleton_append, notifications_append, notifications_writeFlag, List.append_nil]
    exact framed_result _

theorem framed_effects_iff (d : Device) (x : Stimulus) :
    (∀ n ∈ notifications (effects d x), Framed n) ↔ ¬ IsRetry x := by
  constructor
  · rintro h hx
    cases x with
    | ctrl i => exact hx
    | app f =>
      cases f with
      | start f | data f => exact hx
      | packageRetry f =>
        simp only [effects, otaHandle, otaPackageRetry] at h
        split_ifs at h
        · exact not_framed_retry _ _ (h _ (List.mem_singleton_self _))
        · exact not_framed_retry _ _ (h _ (List.mem_singleton_self _))
      | eraseRetry f =>
        simp only [effects, otaHandle, otaEraseRetry] at h
        split_ifs at h
        · exact not_framed_retry _ _ (h _ (List.mem_singleton_self _))
        · exact not_framed_retry _ _ (h _ (List.mem_singleton_self _))
  · intro hx
    cases x with
    | app f => exact framed_app (otaHandle_move d.ota f) hx
    | ctrl i => exact framed_ctrl (ctrlHandle_move d.ctrl d.ee i)

/-! ### Runs -/

theorem framed_outs_iff (d : Device) (xs : List Stimulus) :
    (∀ n ∈ notifications (outs deviceStep d xs), Framed n) ↔ ∀ x ∈ xs, ¬ IsRetry x := by
  induction xs generalizing d with
  | nil => simp
  | cons x xs ih =>
    rw [outs_cons, notifications_append, List.forall_mem_append, List.forall_mem_cons, ih]
    exact and_congr_left' (framed_effects_iff d x)

/-- **The notifications of a run are well framed exactly when no retry frame of the app is in
it.** -/
theorem wellFramed_iff (e : Eeprom) (xs : List Stimulus) :
    WellFramed (notifications (outs deviceStep (boot e) xs)) ↔ ∀ x ∈ xs, ¬ IsRetry x := by
  rw [wellFramed_iff_forall]
  exact framed_outs_iff (boot e) xs

/-- A package retry that is refused. -/
def refusedRetry : PackageRetryFrame := ⟨[0x53, 0x35, 0x0B, 0x05, 0x00], rfl, le_rfl, le_rfl⟩

/-- **The answer to a retry is five bytes in a notification of seven.** -/
theorem not_wellFramed_retry : ¬ ∀ (e : Eeprom) (xs : List Stimulus),
    WellFramed (notifications (outs deviceStep (boot e) xs)) := by
  intro h
  have hframed := (h (fun _ => 0) [.app (.packageRetry refusedRetry)]).framed
  exact (framed_outs_iff _ _).mp hframed _ (List.mem_singleton_self _) trivial

end BleHidUart.Firmware.Notifications
