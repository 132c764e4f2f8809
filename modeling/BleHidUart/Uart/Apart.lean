import BleHidUart.Uart.V3Replies

/-!
# A controller that keeps its replies apart

A V3 reply gets through the receiver if it is alone: each pause of the controller comes behind a
whole reply, or inside one but not behind its first byte. `Paced` says so of the events alone,
whatever the buffer held before. `replies_paced`: then all replies of the stream are handed on, and
nothing stays behind.

Between such replies come strings of other kinds, each up to a pause: legacy data, OTA replies,
anything that does not begin as a V3 frame does. `replies_carried`: they do not disturb the replies.
-/

namespace BleHidUart.Uart.Apart

open BleHidUart.Board BleHidUart.Lib.Run BleHidUart.Lib.Word BleHidUart.Uart.Receiver
open BleHidUart.Uart.Segments BleHidUart.Uart.V3Replies BleHidUart.V3.Deframe BleHidUart.V3.Parser

/-- With `n` bytes of a reply waiting, each TIMEOUT of the events finds a reply, or two bytes of it
or more, or nothing; and in the end nothing is left. -/
def Paced : ℕ → List UartEvent → Prop
  | n, [] => n = 0
  | n, .data bs :: es => Paced (n + bs.length) es
  | n, .timeout bs :: es => n + bs.length ≤ 20 ∧ n + bs.length ≠ 1 ∧
      Paced (if n + bs.length = 20 then 0 else n + bs.length) es

instance decidablePaced : ∀ (n : ℕ) (es : List UartEvent), Decidable (Paced n es)
  | n, [] => inferInstanceAs (Decidable (n = 0))
  | n, .data bs :: es => decidablePaced (n + bs.length) es
  | n, .timeout bs :: es =>
    have := decidablePaced (if n + bs.length = 20 then 0 else n + bs.length) es
    inferInstanceAs (Decidable (n + bs.length ≤ 20 ∧ n + bs.length ≠ 1 ∧ Paced _ es))

/-- The bytes that wait are those of one reply. -/
theorem Paced.le : ∀ (n : ℕ) (es : List UartEvent), Paced n es → n ≤ 20
  | n, [], h => by
    have hzero : n = 0 := h
    omega
  | n, .data bs :: es, h => by
    have hle := Paced.le (n + bs.length) es h
    omega
  | n, .timeout bs :: es, h => by
    have hle := h.1
    omega

variable {u : RxState}

/-- The bytes that wait in the buffer and in the FIFO. -/
abbrev waiting (u : RxState) : ℕ := u.usartRxCnt + u.fifo.length

theorem length_held (u : RxState) : (v3Flow.held u).length = waiting u := by
  show (buffered u ++ u.fifo).length = _
  rw [List.length_append, length_buffered]

theorem waiting_data {bs : List UInt8} (h : Within u (.data bs)) :
    waiting (rxStep u (.data bs)).1 = waiting u + bs.length := by
  rw [← length_held, held_data h, length_given]
  rfl

theorem waiting_timeout {bs future : List UInt8} (h : Within u (.timeout bs))
    (hgood : Replies (v3Flow.given u (.timeout bs) ++ future)) (hle : waiting u + bs.length ≤ 20)
    (hone : waiting u + bs.length ≠ 1) :
    waiting (rxStep u (.timeout bs)).1 =
      if waiting u + bs.length = 20 then 0 else waiting u + bs.length := by
  rw [given_timeout] at hgood
  have hcnt := filled_usartRxCnt u bs
  rw [← length_held, held_timeout h]
  generalize filled u (.timeout bs) = v at hgood hcnt ⊢
  rw [← hcnt] at hle hone ⊢
  by_cases hzero : v.usartRxCnt = 0
  · rw [(tailLeft_legacy (not_hasCtrlReply_of_lt (by omega)) (not_looksV3_of_zero hzero)).2, hzero]
    rfl
  obtain ⟨f, rest, heq, -, hbyte⟩ := exists_reply hgood (buffered_ne_nil hzero)
  rw [length_buffered] at hbyte
  by_cases hfull : v.usartRxCnt = 20
  · rw [(tailLeft_reply (by omega) heq hbyte).2, if_pos hfull]
    rfl
  · have hv := looksV3_reply (by omega) hbyte fun h1 => absurd h1 hone
    have hc : ¬CompleteV3 v := fun hc => hfull (le_antisymm hle ((completeV3_reply hbyte).mp hc))
    have htail : timeoutTail v = (v, []) := by
      rw [timeoutTail_of_not (not_hasCtrlReply hv), if_pos hv, if_neg hc]
    rw [htail, length_buffered, if_neg hfull]

theorem eachStep_paced {es : List UartEvent} (hp : Paced (waiting u) es)
    (hgood : Replies (v3Flow.held u ++ es.flatMap UartEvent.arrived)) :
    EachStep rxStep Within u es ∧ EachStep rxStep AtMostOne u es ∧
      waiting (final rxStep u es) = 0 := by
  have hsize : rxBufferSize = 240 := rfl
  induction es generalizing u with
  | nil => exact ⟨trivial, trivial, hp⟩
  | cons e es ih =>
    rw [List.flatMap_cons, ← List.append_assoc] at hgood
    cases e with
    | data bs =>
      have hle : waiting u + bs.length ≤ 20 := Paced.le _ es hp
      have hw : Within u (.data bs) := by
        show waiting u + bs.length ≤ _
        omega
      have hnext := (v3Channel.passes u (.data bs) _ hw hgood trivial).2
      have hp' : Paced (waiting u + bs.length) es := hp
      rw [← waiting_data hw] at hp'
      obtain ⟨h1, h2, h3⟩ := ih hp' hnext
      exact ⟨⟨hw, h1⟩, ⟨trivial, h2⟩, h3⟩
    | timeout bs =>
      obtain ⟨hle, hone, hp'⟩ := hp
      have hw : Within u (.timeout bs) := by
        show waiting u + bs.length ≤ _
        omega
      have hC : AtMostOne u (.timeout bs) := ⟨hle, fun h1 => absurd h1 hone⟩
      have hnext := (v3Channel.passes u (.timeout bs) _ hw hgood hC).2
      rw [← waiting_timeout hw hgood hle hone] at hp'
      obtain ⟨h1, h2, h3⟩ := ih hp' hnext
      exact ⟨⟨hw, h1⟩, ⟨hC, h2⟩, h3⟩

/-- **Replies that are kept apart get through**: with nothing waiting, exactly they are handed on,
in order, and nothing is left waiting. -/
theorem replies_paced (hu : waiting u = 0) {fs : List NormalFrame} {es : List UartEvent}
    (hp : Paced 0 es) (harr : es.flatMap UartEvent.arrived = fs.flatMap NormalFrame.bytes) :
    (outs rxStep u es).flatMap mcuReplies = fs.map (fun f => .mcuReply f.bytes f.cmd) ∧
      waiting (final rxStep u es) = 0 := by
  have h0 : v3Flow.held u = [] := List.length_eq_zero_iff.mp ((length_held u).trans hu)
  have hgood : Replies (fs.flatMap NormalFrame.bytes) := ⟨fs, rfl⟩
  obtain ⟨hw, hC, hend⟩ := eachStep_paced (u := u) (hu ▸ hp)
    (by rw [h0, List.nil_append, harr]; exact hgood)
  have hsize : ∀ f : NormalFrame, f.bytes.length = 20 := NormalFrame.size
  have hout : ∀ f : NormalFrame, HandlerCall.frame (.mcuReply f.bytes f.cmd) = f.bytes :=
    fun _ => rfl
  have hheld : v3Flow.held (final rxStep u es) = [] :=
    List.length_eq_zero_iff.mp ((length_held _).trans hend)
  refine ⟨(v3Channel.frames_iff (by omega) hsize (fun o => ?_) hout (fun o k hk => ?_) hw h0 harr
    hgood fun _ => hheld).mpr hC, hend⟩
  · cases o <;> rfl
  · cases o with
    | store i => cases hk
    | call c =>
      obtain ⟨hlen, hform⟩ := callReplies_spec hk
      exact ⟨hlen, fun f hf => by rw [hform, hf, f.byteAt_head.2.2]⟩

/-! ### Other strings in between -/

/-- The controller sends V3 replies, kept apart, or a string of another kind up to a pause. -/
inductive Burst
  | replies (fs : List NormalFrame) (es : List UartEvent)
  | other (pieces : List (List UInt8)) (last : List UInt8)

/-- The replies. -/
def Burst.frames : Burst → List NormalFrame
  | .replies fs _ => fs
  | .other _ _ => []

/-- The events of the UART. -/
def Burst.events : Burst → List UartEvent
  | .replies _ es => es
  | .other pieces last => pieces.map .data ++ [.timeout last]

/-- The replies are paced; any other string begins with another byte, and fits into the buffer. -/
def Burst.Ok : Burst → Prop
  | .replies fs es => Paced 0 es ∧ es.flatMap UartEvent.arrived = fs.flatMap NormalFrame.bytes
  | .other pieces last =>
    byteAt (pieces.flatten ++ last) 0 ≠ v3FrameHead0 ∧
      (pieces.flatten ++ last).length ≤ rxBufferSize

/-- The events bring these replies, and strings of other kinds. -/
def Carries (es : List UartEvent) (fs : List NormalFrame) : Prop :=
  ∃ bs : List Burst, (∀ b ∈ bs, b.Ok) ∧ es = bs.flatMap Burst.events ∧ fs = bs.flatMap Burst.frames

theorem mcuReplies_stores (is : List ℕ) : (is.map RxOut.store).flatMap mcuReplies = [] := by
  rw [List.flatMap_map]
  exact List.flatMap_eq_nil_iff.mpr fun _ _ => rfl

theorem pieces_collected {pieces : List (List UInt8)}
    (hle : waiting u + pieces.flatten.length ≤ rxBufferSize) :
    (outs rxStep u (pieces.map .data)).flatMap mcuReplies = [] ∧
      v3Flow.held (final rxStep u (pieces.map .data)) = v3Flow.held u ++ pieces.flatten := by
  induction pieces generalizing u with
  | nil => exact ⟨rfl, (List.append_nil _).symm⟩
  | cons bs pieces ih =>
    rw [List.flatten_cons, List.length_append] at hle
    have hw : Within u (.data bs) := by
      show waiting u + bs.length ≤ _
      omega
    have hnone : (rxStep u (.data bs)).2.flatMap mcuReplies = [] := by
      rw [rxStep_data hw]
      exact mcuReplies_stores _
    obtain ⟨houts, hheld⟩ := ih (u := (rxStep u (.data bs)).1) (by rw [waiting_data hw]; omega)
    rw [List.map_cons, outs_cons, List.flatMap_append, hnone, houts, final_cons, hheld,
      held_data hw, List.flatten_cons, ← List.append_assoc]
    exact ⟨rfl, rfl⟩

/-- Bytes that do not begin as a V3 frame are no reply, and none of them stays. -/
theorem timeoutTail_other {v : RxState} (hno : ¬LooksV3 v) :
    buffered (timeoutTail v).1 = [] ∧ (timeoutTail v).2.flatMap callReplies = [] := by
  constructor
  · rcases (timeoutTail_cases v).2 with hzero | ⟨hv, -, -⟩
    · exact buffered_eq_nil hzero
    · exact absurd hv hno
  · by_cases hr : HasCtrlReply v
    · rw [timeoutTail_ctrl hr]
      refine List.flatMap_eq_nil_iff.mpr fun c hc => ?_
      obtain ⟨cmd, rfl⟩ := otaReplyLoop_calls _ _ c hc
      rfl
    · rw [timeoutTail_of_not hr, if_neg hno]
      rfl

/-- A string is collected, and handed on at the pause, but not as a reply. -/
theorem string_passes (hu : waiting u = 0) {pieces : List (List UInt8)} {last : List UInt8}
    (h : (Burst.other pieces last).Ok) :
    (outs rxStep u (Burst.other pieces last).events).flatMap mcuReplies = [] ∧
      waiting (final rxStep u (Burst.other pieces last).events) = 0 := by
  obtain ⟨hhead, hsize⟩ := h
  rw [List.length_append] at hsize
  have hle : waiting u + pieces.flatten.length ≤ rxBufferSize := by omega
  obtain ⟨hcollect, hheld⟩ := pieces_collected hle
  have h0 : v3Flow.held u = [] := List.length_eq_zero_iff.mp ((length_held u).trans hu)
  rw [h0, List.nil_append] at hheld
  rw [Burst.events, outs_append, final_append, List.flatMap_append, hcollect]
  generalize final rxStep u (pieces.map .data) = v at hheld ⊢
  have hw : Within v (.timeout last) := by
    show waiting v + last.length ≤ _
    rw [← length_held, hheld]
    exact hsize
  have hbytes : buffered (filled v (.timeout last)) = pieces.flatten ++ last := by
    have hgiven : v3Flow.given v (.timeout last) = _ := given_timeout v last
    rw [← hheld, ← hgiven]
    rfl
  rw [outs_cons, outs_nil, List.append_nil, final_cons, final_nil, ← length_held, held_timeout hw,
    rxStep_timeout hw]
  generalize filled v (.timeout last) = w at hbytes ⊢
  have hno : ¬LooksV3 w := by
    rintro ⟨hpos, h53, -⟩
    rw [← byteAt_buffered hpos, hbytes] at h53
    exact hhead h53
  obtain ⟨hcnt, hcalls⟩ := timeoutTail_other hno
  rw [hcnt, List.nil_append, List.flatMap_append, mcuReplies_stores, List.flatMap_map]
  exact ⟨hcalls, rfl⟩

/-- **Replies among other strings get through**, and nothing else is taken for a reply. -/
theorem replies_carried (hu : waiting u = 0) {es : List UartEvent} {fs : List NormalFrame}
    (h : Carries es fs) : (outs rxStep u es).flatMap mcuReplies =
        fs.map (fun f => .mcuReply f.bytes f.cmd) ∧
      waiting (final rxStep u es) = 0 := by
  obtain ⟨bs, hbs, rfl, rfl⟩ := h
  induction bs generalizing u with
  | nil => exact ⟨rfl, hu⟩
  | cons b bs ih =>
    obtain ⟨hb, hbs⟩ := List.forall_mem_cons.mp hbs
    have hone : (outs rxStep u b.events).flatMap mcuReplies =
        b.frames.map (fun f => .mcuReply f.bytes f.cmd) ∧
          waiting (final rxStep u b.events) = 0 := by
      cases b with
      | replies fs es => exact replies_paced hu hb.1 hb.2
      | other pieces last => exact string_passes hu hb
    obtain ⟨hrest, hend⟩ := ih hone.2 hbs
    rw [List.flatMap_cons, outs_append, List.flatMap_append, hone.1, hrest, final_append,
      List.flatMap_cons, List.map_append]
    exact ⟨rfl, hend⟩

end BleHidUart.Uart.Apart
