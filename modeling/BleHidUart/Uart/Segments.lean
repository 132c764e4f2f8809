import BleHidUart.Lib.Stream
import BleHidUart.Uart.Receiver

/-!
# The receiver as a flow of bytes

The replies of the controller come as a stream of bytes that the UART cuts into DATA and TIMEOUT
events. A DATA event only collects; a TIMEOUT hands on what it finds and may drop the rest.
`rxChannel` reduces the question whether a stream gets through to what a TIMEOUT does with the
collected bytes.
-/

namespace BleHidUart.Uart.Segments

open BleHidUart.Lib.Memory BleHidUart.Lib.Run BleHidUart.Lib.Stream BleHidUart.Uart.Receiver

/-- The bytes of the receiver: what arrives, what waits in the buffer and in the FIFO, and what the
calls hand on. -/
def rxFlow (items : RxCall → List UInt8) : Flow RxState UartEvent RxOut UInt8 where
  arrives := UartEvent.arrived
  held := fun u => buffered u ++ u.fifo
  items
    | .store _ => []
    | .call c => items c

variable {items : RxCall → List UInt8} {u : RxState} {arrived : List UInt8}

theorem given_eq (u : RxState) (e : UartEvent) :
    (rxFlow items).given u e = buffered u ++ (u.fifo ++ e.arrived) := List.append_assoc _ _ _

theorem length_given (u : RxState) (e : UartEvent) : ((rxFlow items).given u e).length =
    u.usartRxCnt + u.fifo.length + e.arrived.length := by
  rw [given_eq, List.length_append, List.length_append, length_buffered, Nat.add_assoc]

theorem given_timeout (u : RxState) (arrived : List UInt8) :
    (rxFlow items).given u (.timeout arrived) = buffered (filled u (.timeout arrived)) := by
  rw [given_eq, buffered_filled]
  rfl

theorem flatMap_stores (is : List ℕ) : (is.map RxOut.store).flatMap (rxFlow items).items = [] := by
  rw [List.flatMap_map]
  exact List.flatMap_eq_nil_iff.mpr fun _ _ => rfl

theorem held_data (h : Within u (.data arrived)) :
    (rxFlow items).held (rxStep u (.data arrived)).1 = (rxFlow items).given u (.data arrived) := by
  rw [rxStep_data h, given_eq]
  show buffered (filled u (.data arrived)) ++ (filled u (.data arrived)).fifo = _
  rw [buffered_filled]
  show (buffered u ++ (u.fifo ++ arrived).dropLast) ++
    (u.fifo ++ arrived).drop ((u.fifo ++ arrived).length - 1) = _
  rw [List.append_assoc, List.dropLast_eq_take, List.take_append_drop]
  rfl

theorem left_data (h : Within u (.data arrived)) :
    (rxFlow items).left rxStep u (.data arrived) = (rxFlow items).given u (.data arrived) := by
  unfold Flow.left
  rw [held_data h, rxStep_data h]
  dsimp only
  rw [flatMap_stores, List.nil_append]

theorem held_timeout (h : Within u (.timeout arrived)) :
    (rxFlow items).held (rxStep u (.timeout arrived)).1 =
      buffered (timeoutTail (filled u (.timeout arrived))).1 := by
  rw [rxStep_timeout h]
  show buffered (timeoutTail (filled u (.timeout arrived))).1 ++
    (timeoutTail (filled u (.timeout arrived))).1.fifo = _
  rw [(timeoutTail_cases _).1]
  show _ ++ (u.fifo ++ arrived).drop (u.fifo ++ arrived).length = _
  rw [List.drop_length, List.append_nil]

/-- What a TIMEOUT leaves of the collected bytes. -/
def tailLeft (items : RxCall → List UInt8) (v : RxState) : List UInt8 :=
  (timeoutTail v).2.flatMap items ++ buffered (timeoutTail v).1

theorem left_timeout (h : Within u (.timeout arrived)) :
    (rxFlow items).left rxStep u (.timeout arrived) =
      tailLeft items (filled u (.timeout arrived)) := by
  unfold Flow.left tailLeft
  rw [held_timeout h, rxStep_timeout h]
  dsimp only
  rw [List.flatMap_append, flatMap_stores, List.nil_append, List.flatMap_map]
  rfl

theorem filled_usartRxCnt (u : RxState) (arrived : List UInt8) :
    (filled u (.timeout arrived)).usartRxCnt = u.usartRxCnt + u.fifo.length + arrived.length := by
  show u.usartRxCnt + (u.fifo ++ arrived).length = _
  rw [List.length_append, Nat.add_assoc]

/-- **The receiver is a channel** if its TIMEOUTs are. -/
theorem rxChannel {C : RxState → UartEvent → Prop} {Good : List UInt8 → Prop}
    (hdata : ∀ u arrived, C u (.data arrived))
    (hshrinks : ∀ v : RxState, v.usartRxCnt ≤ rxBufferSize →
      (tailLeft items v).length ≤ v.usartRxCnt)
    (hpasses : ∀ u arrived future, Good (buffered (filled u (.timeout arrived)) ++ future) →
      C u (.timeout arrived) →
      tailLeft items (filled u (.timeout arrived)) = buffered (filled u (.timeout arrived)) ∧
        Good (buffered (timeoutTail (filled u (.timeout arrived))).1 ++ future))
    (hloses : ∀ u arrived future, Good (buffered (filled u (.timeout arrived)) ++ future) →
      ¬ C u (.timeout arrived) →
      (tailLeft items (filled u (.timeout arrived))).length <
        (filled u (.timeout arrived)).usartRxCnt) :
    Channel rxStep (rxFlow items) Within C Good := by
  constructor
  · intro u e hw
    cases e with
    | data arrived => rw [left_data hw]
    | timeout arrived =>
      rw [left_timeout hw, length_given]
      have hle := hshrinks (filled u (.timeout arrived)) (by rw [filled_usartRxCnt]; exact hw)
      rwa [filled_usartRxCnt] at hle
  · intro u e future hw hgood hC
    cases e with
    | data arrived =>
      rw [held_data hw]
      exact ⟨left_data hw, hgood⟩
    | timeout arrived =>
      rw [given_timeout] at hgood ⊢
      rw [left_timeout hw, held_timeout hw]
      exact hpasses u arrived future hgood hC
  · intro u e future hw hgood hC
    cases e with
    | data arrived => exact absurd (hdata u arrived) hC
    | timeout arrived =>
      rw [given_timeout] at hgood ⊢
      rw [left_timeout hw, length_buffered]
      exact hloses u arrived future hgood hC

theorem buffered_eq_nil (h : u.usartRxCnt = 0) : buffered u = [] := by
  unfold buffered
  rw [h, slice_zero]

theorem held_final_timeout (items : RxCall → List UInt8) {es : List UartEvent}
    (hG : EachStep rxStep Within u (es ++ [.timeout arrived])) :
    ∃ v : RxState, (rxFlow items).held (final rxStep u (es ++ [.timeout arrived])) =
      buffered (timeoutTail v).1 := by
  have hlast := ((eachStep_append rxStep Within u es [.timeout arrived]).mp hG).2.1
  refine ⟨filled (final rxStep u es) (.timeout arrived), ?_⟩
  rw [← held_timeout hlast, final_append]
  rfl

theorem held_eq_nil (hcnt : u.usartRxCnt = 0) (hfifo : u.fifo = []) :
    (rxFlow items).held u = [] := by
  show buffered u ++ u.fifo = []
  rw [buffered_eq_nil hcnt, hfifo]
  rfl

theorem buffered_ne_nil (h : u.usartRxCnt ≠ 0) : buffered u ≠ [] := fun hnil => by
  have hlen := length_buffered u
  rw [hnil, List.length_nil] at hlen
  exact h hlen.symm

theorem not_looksV3_of_zero {v : RxState} (h : v.usartRxCnt = 0) : ¬ LooksV3 v := fun hv =>
  absurd h (Nat.pos_iff_ne_zero.mp hv.1)

theorem not_hasCtrlReply_of_lt {v : RxState} (h : v.usartRxCnt < 8) : ¬ HasCtrlReply v := fun hr =>
  absurd hr.1 (Nat.not_le.mpr h)

end BleHidUart.Uart.Segments
