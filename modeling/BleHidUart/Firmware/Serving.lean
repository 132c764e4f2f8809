import BleHidUart.Firmware.Answers
import BleHidUart.Uart.Apart

/-!
# Requests that are served

The app writes a request, and waits for the answer before the next one. The controller replies in
time, byte by byte as the UART brings them, perhaps with damaged replies before the good one, or not
at all; a reply may also come when the request is answered already. Meanwhile anything else may
reach `main`, but for requests of the app and strings of the controller that begin as a V3 frame
does and are no whole reply.

`main_serves`: the controller gets the requests, and the app gets to each of them an error frame for
each damaged reply, then the reply or the error frame of the timeout, then what comes too late, in
this order and nothing else.
-/

namespace BleHidUart.Firmware.Serving

open BleHidUart.Board BleHidUart.Firmware.Answers BleHidUart.Firmware.Calls
open BleHidUart.Firmware.Dispatch BleHidUart.Firmware.Machine BleHidUart.Firmware.Main
open BleHidUart.Firmware.Parsed BleHidUart.Firmware.Requests BleHidUart.Lib.Run BleHidUart.Lib.Word
open BleHidUart.Uart.Apart BleHidUart.V3.Bridge BleHidUart.V3.Deframe BleHidUart.V3.Handlers
open BleHidUart.V3.Parser

/-! ### Exchanges -/

/-- How the controller takes a request: with a reply, or with none until a round of the timer at
`now`. -/
inductive Outcome
  | replied (g : NormalFrame)
  | silent (now : UInt32)

/-- The replies with the right CRC. -/
def Outcome.replies : Outcome → List NormalFrame
  | .replied g => [g]
  | .silent _ => []

/-- The round of the timer that finds no reply. -/
def Outcome.events : Outcome → List MainEvent
  | .replied _ => []
  | .silent now => [.event (.timeoutTick now)]

/-- A request, what reaches `main` until its outcome, with the damaged replies, and what reaches it
from then to the next request, with the replies that are late. -/
structure Exchange where
  request : NormalFrame
  clock : ℕ → UInt32
  waiting : List MainEvent
  damaged : List NormalFrame
  outcome : Outcome
  rest : List MainEvent
  late : List NormalFrame

/-- The events of the exchange. -/
def Exchange.events (x : Exchange) : List MainEvent :=
  .event (.appData x.request.bytes x.clock) :: (x.waiting ++ x.outcome.events ++ x.rest)

/-- What the app is told in the end. -/
def Exchange.answer (x : Exchange) : Effect :=
  match x.outcome with
  | .replied g => .notify g.bytes v3FrameSizeNormal
  | .silent _ => noReplyTo x.request.cmd (byteAt x.request.bytes 3)

/-- What the V3 bridge does: the request goes to the controller, then the app gets its answers. -/
def Exchange.effects (x : Exchange) : List Effect :=
  .uart x.request.bytes :: (x.damaged.map fun g => v3CrcError g.bytes g.cmd) ++
    x.answer :: x.late.map answerTo

/-- No round of the timer finds the request of the time `t₀` expired. -/
def Early (t₀ : UInt32) : MainEvent → Prop
  | .event (.timeoutTick now) => now - t₀ < v3McuReplyTimeoutMs
  | _ => True

instance (t₀ : UInt32) : (y : MainEvent) → Decidable (Early t₀ y)
  | .event (.timeoutTick now) => inferInstanceAs (Decidable (now - t₀ < v3McuReplyTimeoutMs))
  | .event (.uart _ _) | .event (.handshakeTick _) | .event (.appData _ _) | .event (.mainLoop _)
  | .wakeUp => .isTrue trivial

/-- The app and the controller do their part: the request has its CRC and is alone, the replies come
one by one before a round of the timer finds the request expired, and only the last one has its CRC.
Strings of other kinds may come between them, and after them. -/
structure Exchange.Ok (x : Exchange) : Prop where
  crc : CrcOk x.request
  alone : ∀ y ∈ x.waiting ++ x.rest, NoRequest y
  early : ∀ y ∈ x.waiting, Early (x.clock 0) y
  arrives : Carries (uartIn x.waiting) (x.damaged ++ x.outcome.replies)
  late : Carries (uartIn x.rest) x.late
  damaged : ∀ g ∈ x.damaged, ¬CrcOk g
  replied : ∀ g ∈ x.outcome.replies, CrcOk g
  expired : ∀ now, x.outcome = .silent now → v3McuReplyTimeoutMs ≤ now - x.clock 0

/-- No request is pending, and no byte of the controller is waiting. -/
structure Free (m : MainState) : Prop where
  pending : (v3Of m.firmware).waitingMcuReply = false
  rx : Uart.Apart.waiting m.firmware.rx = 0

section Serve
variable (addr : List UInt8) {m : MainState} {x : Exchange}

theorem outs_main_append (ys zs : List MainEvent) : v3Effects (outs (mainStep addr) m (ys ++ zs)) =
    v3Effects (outs (mainStep addr) m ys) ++
      v3Effects (outs (mainStep addr) (final (mainStep addr) m ys) zs) := by
  rw [outs_append, v3Effects_append]

theorem serve_request {g : NormalFrame} (hg : CrcOk g) (clock : ℕ → UInt32) :
    v3Of (mainStep addr m (.event (.appData g.bytes clock))).1.firmware =
        forwarded (v3Of m.firmware) g (clock 0) ∧
      (mainStep addr m (.event (.appData g.bytes clock))).1.firmware.rx = m.firmware.rx ∧
      v3Effects (mainStep addr m (.event (.appData g.bytes clock))).2 = [.uart g.bytes] := by
  have hcalls : v3HandleAppData g.bytes (UInt16.ofNat g.bytes.length) =
      [.readWrite g.bytes g.cmd] := by
    have hsize : ([g].flatMap NormalFrame.bytes).length ≤ 65535 := by
      rw [List.flatMap_singleton, g.size]
      omega
    have h := writeCalls_requests ⟨[g], hsize⟩
    dsimp only at h
    rwa [List.flatMap_singleton] at h
  have hstep := v3_request addr m.firmware hg (clock 0)
  have hrun : firmwareStep addr m.firmware (.appData g.bytes clock) =
      singleStep addr m.firmware (.parsed (.readWrite g.bytes g.cmd) (clock 0)) := by
    simp only [firmwareStep, hcalls, runCalls_singleton]
    rfl
  refine ⟨?_, rfl, ?_⟩
  · show v3Of (firmwareStep addr m.firmware (.appData g.bytes clock)).1 = _
    rw [hrun]
    exact hstep.1
  · show v3Effects (firmwareStep addr m.firmware (.appData g.bytes clock)).2 = _
    rw [hrun]
    exact hstep.2

theorem serve_expired (hphase : m.phase = .timers) {now : UInt32}
    (hexp : Expires (v3Of m.firmware) now) :
    v3Of (mainStep addr m (.event (.timeoutTick now))).1.firmware =
        { v3Of m.firmware with waitingMcuReply := false } ∧
      (mainStep addr m (.event (.timeoutTick now))).1.firmware.rx = m.firmware.rx ∧
      v3Effects (mainStep addr m (.event (.timeoutTick now))).2 =
        [noReplyTo (v3Of m.firmware).pendingCmd (v3Of m.firmware).pendingGrp] := by
  obtain ⟨hstate, heffects⟩ := v3_tick addr m.firmware now
  have hrun : mainStep addr m (.event (.timeoutTick now)) = run addr m (.timeoutTick now) :=
    if_pos hphase
  rcases v3TimeoutCheck_cases (v3Of m.firmware) now with ⟨-, hcheck⟩ | ⟨hno, -⟩
  · rw [hcheck] at hstate heffects
    rw [hrun]
    exact ⟨hstate, rfl, heffects⟩
  · exact absurd hexp hno

/-- The wait: the damaged replies are reported, and the good one, if there is one, is passed on. -/
theorem serve_wait (hx : x.Ok) (hv3 : (v3Of m.firmware).sendTimeMs = x.clock 0)
    (hrx : Uart.Apart.waiting m.firmware.rx = 0) :
    v3Effects (outs (mainStep addr) m x.waiting) = (x.damaged ++ x.outcome.replies).map answerTo ∧
      v3Of (final (mainStep addr) m x.waiting).firmware =
        afterReplies (v3Of m.firmware) (x.damaged ++ x.outcome.replies) ∧
      Uart.Apart.waiting (final (mainStep addr) m x.waiting).firmware.rx = 0 := by
  obtain ⟨hreplies, hclean⟩ := replies_carried hrx hx.arrives
  have hearly : ∀ now, .event (.timeoutTick now) ∈ x.waiting → ¬Expires (v3Of m.firmware) now := by
    intro now hmem hexp
    have hlate := hexp.2
    rw [hv3] at hlate
    exact absurd (hx.early _ hmem) (UInt32.not_lt.mpr hlate)
  obtain ⟨heffects, hstate⟩ := main_stretch addr
    (fun y hy => hx.alone y (List.mem_append_left _ hy)) hearly hreplies
  refine ⟨heffects, hstate, ?_⟩
  rw [(parsed_run addr m x.waiting).2]
  exact hclean

theorem serve_rest (hx : x.Ok) (hm : Free m) :
    v3Effects (outs (mainStep addr) m x.rest) = x.late.map answerTo ∧
      Free (final (mainStep addr) m x.rest) := by
  obtain ⟨hreplies, hclean⟩ := replies_carried hm.rx hx.late
  obtain ⟨heffects, hstate⟩ := main_stretch addr
    (fun y hy => hx.alone y (List.mem_append_right _ hy))
    (fun now _ hexp => by rw [Expires, hm.pending] at hexp; exact Bool.false_ne_true hexp.1)
      hreplies
  refine ⟨heffects, ?_, ?_⟩
  · rw [hstate, afterReplies, hm.pending]
    rfl
  · rw [(parsed_run addr m x.rest).2]
    exact hclean

theorem serve_outcome (hx : x.Ok) {s : V3BridgeState}
    (hstate : v3Of m.firmware =
      afterReplies (forwarded s x.request (x.clock 0)) (x.damaged ++ x.outcome.replies))
    (hrx : Uart.Apart.waiting m.firmware.rx = 0)
    (hphase : ∀ now, x.outcome = .silent now → m.phase = .timers) :
    (x.damaged ++ x.outcome.replies).map answerTo ++
      v3Effects (outs (mainStep addr) m x.outcome.events) =
        (x.damaged.map fun g => v3CrcError g.bytes g.cmd) ++ [x.answer] ∧
      Free (final (mainStep addr) m x.outcome.events) := by
  have hdamaged : x.damaged.map answerTo = x.damaged.map fun g => v3CrcError g.bytes g.cmd :=
    List.map_congr_left fun g hg => if_neg (hx.damaged g hg)
  rw [List.map_append, hdamaged, List.append_assoc]
  unfold Exchange.answer
  cases hout : x.outcome with
  | replied g =>
    have hg : CrcOk g := hx.replied g (by rw [hout]; exact List.mem_singleton_self g)
    rw [hout] at hstate
    refine ⟨congrArg _ (congrArg (· :: []) (if_pos hg)), ?_, hrx⟩
    show (v3Of m.firmware).waitingMcuReply = false
    rw [hstate]
    simp [afterReplies, Outcome.replies, hg]
  | silent now =>
    have hpending : v3Of m.firmware = forwarded s x.request (x.clock 0) := by
      have hall : x.damaged.all (¬CrcOk ·) = true :=
        List.all_eq_true.mpr fun g hg => decide_eq_true (hx.damaged g hg)
      rw [hstate, hout, Outcome.replies, List.append_nil, afterReplies, hall]
      rfl
    have hexp : Expires (v3Of m.firmware) now := by
      rw [hpending]
      exact ⟨rfl, hx.expired now hout⟩
    obtain ⟨hfree, hsame, heffects⟩ := serve_expired addr (hphase now hout) hexp
    have hone : v3Effects (outs (mainStep addr) m (Outcome.silent now).events) =
        [noReplyTo x.request.cmd (byteAt x.request.bytes 3)] := by
      rw [Outcome.events, outs_cons, v3Effects_append, heffects, hpending]
      rfl
    refine ⟨by rw [hone]; rfl, ?_, ?_⟩
    · exact (congrArg V3BridgeState.waitingMcuReply hfree)
    · exact (congrArg Uart.Apart.waiting hsame).trans hrx

/-- **One exchange.** -/
theorem serve_exchange (hx : x.Ok) (hm : Free m)
    (hphase : ∀ now, x.outcome = .silent now → m.phase = .timers) :
    v3Effects (outs (mainStep addr) m x.events) = x.effects ∧
      Free (final (mainStep addr) m x.events) := by
  obtain ⟨hsent, hrx, hforward⟩ := serve_request addr (m := m) hx.crc x.clock
  have hphase' : ∀ now, x.outcome = .silent now →
      (final (mainStep addr) (mainStep addr m (.event (.appData x.request.bytes x.clock))).1
        x.waiting).phase = .timers := fun now hs =>
    timers_stay addr (timers_stay addr (hphase now hs) [_]) x.waiting
  unfold Exchange.events Exchange.effects
  rw [outs_cons, v3Effects_append, hforward, final_cons, List.append_assoc, outs_main_append,
    final_append, outs_main_append, final_append]
  generalize (mainStep addr m (.event (.appData x.request.bytes x.clock))).1 =
    m at hsent hrx hphase' ⊢
  obtain ⟨hwait, hstate, hclean⟩ := serve_wait addr hx (by rw [hsent]; rfl) (hrx ▸ hm.rx)
  rw [hsent] at hstate
  obtain ⟨hanswers, hfree⟩ := serve_outcome addr hx hstate hclean hphase'
  obtain ⟨hlate, hend⟩ := serve_rest addr hx hfree
  refine ⟨?_, hend⟩
  rw [hwait, hlate, ← List.append_assoc (List.map answerTo _), hanswers]
  simp only [List.append_assoc, List.cons_append, List.nil_append]

end Serve

/-- A reply in two pieces, behind a damaged one, an OTA reply, a string of two bytes and a lock
command of the app; then a request whose reply comes too late. -/
def sampleExchanges : List Exchange :=
  [{ request := readFrame 2 0x13
     clock := fun _ => 10
     waiting := [.event (.uart (.timeout (readFrame 2 0x99).bytes) fun _ => 30),
       .event (.uart (.timeout [0xEB, 0x90, 0xEB, 0x90, 0xEB, 0x90, 0x08, 0x0B]) fun _ => 35),
       .event (.appData [0x55, 0x04, 0xAA] fun _ => 40), .event (.uart (.data [0x5A]) fun _ => 42),
       .event (.uart (.timeout [0xA5]) fun _ => 44),
       .event (.uart (.data ((readFrame 2 0x13).bytes.take 3)) fun _ => 50),
       .event (.timeoutTick 200),
       .event (.uart (.timeout ((readFrame 2 0x13).bytes.drop 3)) fun _ => 300)]
     damaged := [readFrame 2 0x99]
     outcome := .replied (readFrame 2 0x13)
     rest := [.event (.timeoutTick 1000)]
     late := [] },
    { request := readFrame 3 0x15
      clock := fun _ => 1100
      waiting := [.event (.timeoutTick 1200), .event (.handshakeTick 1250)]
      damaged := []
      outcome := .silent 2000
      rest := [.event (.uart (.timeout (readFrame 3 0x15).bytes) fun _ => 2010)]
      late := [readFrame 3 0x15] }]

theorem carries_sample :
    Carries [.timeout (readFrame 2 0x99).bytes,
    .timeout [0xEB, 0x90, 0xEB, 0x90, 0xEB, 0x90, 0x08, 0x0B],
      .data [0x5A], .timeout [0xA5], .data ((readFrame 2 0x13).bytes.take 3),
      .timeout ((readFrame 2 0x13).bytes.drop 3)] [readFrame 2 0x99, readFrame 2 0x13] := by
  refine ⟨[.replies [readFrame 2 0x99] [.timeout (readFrame 2 0x99).bytes],
    .other [] [0xEB, 0x90, 0xEB, 0x90, 0xEB, 0x90, 0x08, 0x0B], .other [[0x5A]] [0xA5],
    .replies [readFrame 2 0x13] [.data ((readFrame 2 0x13).bytes.take 3),
      .timeout ((readFrame 2 0x13).bytes.drop 3)]], ?_, rfl, rfl⟩
  refine List.forall_mem_cons.mpr ⟨⟨by decide, by decide⟩, ?_⟩
  refine List.forall_mem_cons.mpr ⟨⟨by decide, by decide⟩, ?_⟩
  refine List.forall_mem_cons.mpr ⟨⟨by decide, by decide⟩, ?_⟩
  exact List.forall_mem_singleton.mpr ⟨by decide, by decide⟩

theorem sampleExchanges_ok : ∀ x ∈ sampleExchanges, x.Ok := by
  have hnone : Carries [] [] := ⟨[], nofun, rfl, rfl⟩
  have hlate : Carries [.timeout (readFrame 3 0x15).bytes] [readFrame 3 0x15] :=
    ⟨[.replies [readFrame 3 0x15] [.timeout (readFrame 3 0x15).bytes]],
      List.forall_mem_singleton.mpr ⟨by decide, by decide⟩, rfl, rfl⟩
  unfold sampleExchanges
  refine List.forall_mem_cons.mpr ⟨?_, List.forall_mem_singleton.mpr ?_⟩
  · exact ⟨by decide +kernel, by decide +kernel, by decide, carries_sample, hnone,
      by decide +kernel, by decide +kernel, nofun⟩
  · refine ⟨by decide +kernel, by decide +kernel, by decide, hnone, hlate, nofun, nofun, ?_⟩
    rintro now heq
    cases heq
    decide

end BleHidUart.Firmware.Serving
