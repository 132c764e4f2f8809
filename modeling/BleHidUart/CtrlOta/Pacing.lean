import BleHidUart.CtrlOta.Transfer

/-!
# The pacing of the request frame

`Ctrl_ota_process` reads the uptime in milliseconds, which wraps at `2 ^ 32`. In `WAIT_DATA_ACK` it
compares the wrapped difference to the last request time, which does not depend on where the clock
stands; in `SEND_REQUEST` it compares the readings themselves (`now <= last`, `now >= last + 30`).

`PacedByElapsed` says that a run only depends on the time elapsed: with all readings shifted it is
the same run, and a request goes out exactly if 30 ms have passed since the last one. `ClockAgrees`
is the condition on two readings under which the comparisons of `SEND_REQUEST` see the elapsed time,
and `pacedByElapsed_iff` says that it decides.
-/

namespace BleHidUart.CtrlOta.Pacing

open BleHidUart.Board BleHidUart.CtrlOta.Machine BleHidUart.CtrlOta.Transfer BleHidUart.Lib.Run

/-! ### Shifted clocks -/

/-- The context with its last request time shifted. -/
def shiftCtx (d : UInt32) (g : CtrlOtaCtx) : CtrlOtaCtx :=
  { g with lastRequestTime := g.lastRequestTime + d }

def shift (d : UInt32) (s : CtrlOtaCtx × Eeprom) : CtrlOtaCtx × Eeprom := (shiftCtx d s.1, s.2)

/-- The event at a clock that is ahead by `d`. -/
def shiftEvent (d : UInt32) : CtrlEvent → CtrlEvent
  | .tick now => .tick (now + d)
  | .reply cmd now => .reply cmd (now + d)

/-- The run with the shifted readings, from the shifted context, goes through the same states and
has the same effects. -/
def SameRun (d : UInt32) (s : CtrlOtaCtx × Eeprom) (is : List CtrlEvent) : Prop :=
  ∀ xs, xs <+: is →
    final ctrlStep (shift d s) (xs.map (shiftEvent d)) = shift d (final ctrlStep s xs) ∧
      outs ctrlStep (shift d s) (xs.map (shiftEvent d)) = outs ctrlStep s xs

/-- A tick in `SEND_REQUEST` sends the request exactly if 30 ms have passed since the last one. -/
def RequestInTime (s : CtrlOtaCtx × Eeprom) (i : CtrlEvent) : Prop :=
  ∀ now, i = .tick now → s.1.state = .sendRequest →
    (ctrlOtaSendRequest s.1 ∈ (ctrlStep s i).2 ↔ 30 ≤ now - s.1.lastRequestTime)

/-- The run only depends on the elapsed time. -/
structure PacedByElapsed (d : UInt32) (s : CtrlOtaCtx × Eeprom) (is : List CtrlEvent) : Prop where
  sameRun : SameRun d s is
  inTime : EachStep ctrlStep RequestInTime s is

/-- If 30 ms have passed, the clock has not wrapped since the last request; and if it has not
wrapped, the last request was not in the last 30 ms before the wrap. -/
def ClockAgrees (now last : UInt32) : Prop :=
  (30 ≤ now - last → last ≤ now) ∧ (last < now → last.toNat + 30 < 2 ^ 32)

instance (now last : UInt32) : Decidable (ClockAgrees now last) :=
  inferInstanceAs (Decidable (_ ∧ _))

/-- At a tick in `SEND_REQUEST` the two readings are in such a position. -/
def Steady (s : CtrlOtaCtx × Eeprom) (i : CtrlEvent) : Prop :=
  ∀ now, i = .tick now → s.1.state = .sendRequest → ClockAgrees now s.1.lastRequestTime

/-! ### Two readings -/

theorem sub_shift (now last d : UInt32) : now + d - (last + d) = now - last := by grind

theorem toNat_elapsed (now last : UInt32) :
    (now - last).toNat = (2 ^ 32 - last.toNat + now.toNat) % 2 ^ 32 := UInt32.toNat_sub now last

/-- **The comparisons of `SEND_REQUEST` see the elapsed time exactly if the readings agree.** -/
theorem clockAgrees_iff (now last : UInt32) :
    (¬ now ≤ last ∧ last + 30 ≤ now ↔ 30 ≤ now - last) ↔ ClockAgrees now last := by
  have hnow := now.toNat_lt
  have hlast := last.toNat_lt
  have hsub := toNat_elapsed now last
  have hadd : (last + 30).toNat = (last.toNat + 30) % 2 ^ 32 := UInt32.toNat_add last 30
  unfold ClockAgrees
  rw [UInt32.le_iff_toNat_le, UInt32.le_iff_toNat_le, UInt32.le_iff_toNat_le,
    UInt32.le_iff_toNat_le, UInt32.lt_iff_toNat_lt, hsub, hadd,
    show (30 : UInt32).toNat = 30 from rfl]
  rcases lt_trichotomy now.toNat last.toNat with h | h | h
  · -- the clock has wrapped: nothing is sent, whatever has passed
    have hmod : (2 ^ 32 - last.toNat + now.toNat) % 2 ^ 32 = 2 ^ 32 - last.toNat + now.toNat :=
      Nat.mod_eq_of_lt (by omega)
    rw [hmod]
    omega
  · omega
  · have hmod : (2 ^ 32 - last.toNat + now.toNat) % 2 ^ 32 = now.toNat - last.toNat := by omega
    rw [hmod]
    omega

/-! ### One step -/

theorem process_request {g : CtrlOtaCtx} (e : Eeprom) (now : UInt32) (hs : g.state = .sendRequest) :
    ctrlOtaProcess g e now =
      if ¬ now ≤ g.lastRequestTime ∧ g.lastRequestTime + 30 ≤ now then
        ({ g with lastRequestTime := now }, [ctrlOtaSendRequest g]) else (g, []) := by
  obtain ⟨state, len, crc, sent, addr, last⟩ := g
  obtain rfl : state = .sendRequest := hs
  simp only [ctrlOtaProcess]
  by_cases hle : now ≤ last
  · rw [if_pos hle, if_neg fun h => h.1 hle]
  · rw [if_neg hle]
    by_cases hdue : last + 30 ≤ now
    · rw [if_pos hdue, if_pos ⟨hle, hdue⟩]
    · rw [if_neg hdue, if_neg fun h => hdue h.2]

theorem request_mem_iff {s : CtrlOtaCtx × Eeprom} {now : UInt32} (hs : s.1.state = .sendRequest) :
    ctrlOtaSendRequest s.1 ∈ (ctrlStep s (.tick now)).2 ↔
      ¬ now ≤ s.1.lastRequestTime ∧ s.1.lastRequestTime + 30 ≤ now := by
  have hactive : ctrlOtaIsActive s.1 = true := by simp [ctrlOtaIsActive, hs]
  simp only [ctrlStep, ctrlHandle, if_pos hactive]
  rw [process_request s.2 now hs]
  split_ifs with hdue
  · exact iff_of_true (List.mem_singleton_self _) hdue
  · exact iff_of_false List.not_mem_nil hdue

/-- **A step is in time exactly if its readings agree.** -/
theorem requestInTime_iff (s : CtrlOtaCtx × Eeprom) (i : CtrlEvent) :
    RequestInTime s i ↔ Steady s i := by
  constructor
  · intro h now hi hs
    have hnow := h now hi hs
    rw [hi, request_mem_iff hs] at hnow
    exact (clockAgrees_iff now _).mp hnow
  · intro h now hi hs
    rw [hi, request_mem_iff hs]
    exact (clockAgrees_iff now _).mpr (h now hi hs)

/-- The step at the shifted clock is the same step. -/
def Follows (d : UInt32) (s : CtrlOtaCtx × Eeprom) (i : CtrlEvent) : Prop :=
  ctrlStep (shift d s) (shiftEvent d i) = (shift d (ctrlStep s i).1, (ctrlStep s i).2)

theorem reply_shift (d : UInt32) (g : CtrlOtaCtx) (cmd : UInt8) (now : UInt32) :
    ctrlOtaHandleReply (shiftCtx d g) cmd (now + d) =
      (shiftCtx d (ctrlOtaHandleReply g cmd now).1, (ctrlOtaHandleReply g cmd now).2) := by
  -- the shift passes through every branch: no condition looks at the reading
  show _ = Prod.map (shiftCtx d) id (ctrlOtaHandleReply g cmd now)
  unfold ctrlOtaHandleReply
  simp only [apply_ite (Prod.map (shiftCtx d) id)]
  rfl

/-- Outside `SEND_REQUEST` a tick only looks at the elapsed time. -/
theorem process_shift (d : UInt32) {g : CtrlOtaCtx} (e : Eeprom) (now : UInt32)
    (hs : g.state ≠ .sendRequest) : ctrlOtaProcess (shiftCtx d g) e (now + d) =
      (shiftCtx d (ctrlOtaProcess g e now).1, (ctrlOtaProcess g e now).2) := by
  obtain ⟨state, len, crc, sent, addr, last⟩ := g
  unfold shiftCtx
  cases state with
  | sendRequest => exact absurd rfl hs
  | idle | complete | waitConfirm | waitComplete | error | filed => rfl
  | sendData =>
    simp only [ctrlOtaProcess]
    split_ifs <;> rfl
  | waitDataAck =>
    simp only [ctrlOtaProcess, sub_shift]
    split_ifs <;> rfl

theorem process_shift_request (d : UInt32) {g : CtrlOtaCtx} (e : Eeprom) {now : UInt32}
    (hs : g.state = .sendRequest)
    (hsame : ¬ now + d ≤ g.lastRequestTime + d ∧ g.lastRequestTime + d + 30 ≤ now + d ↔
      ¬ now ≤ g.lastRequestTime ∧ g.lastRequestTime + 30 ≤ now) :
    ctrlOtaProcess (shiftCtx d g) e (now + d) =
      (shiftCtx d (ctrlOtaProcess g e now).1, (ctrlOtaProcess g e now).2) := by
  have hshift : ¬ now + d ≤ (shiftCtx d g).lastRequestTime ∧
      (shiftCtx d g).lastRequestTime + 30 ≤ now + d ↔
        ¬ now ≤ g.lastRequestTime ∧ g.lastRequestTime + 30 ≤ now := hsame
  rw [process_request e now hs, process_request (g := shiftCtx d g) e (now + d) hs]
  by_cases hdue : ¬ now ≤ g.lastRequestTime ∧ g.lastRequestTime + 30 ≤ now
  · rw [if_pos hdue, if_pos (hshift.mpr hdue)]
    rfl
  · rw [if_neg hdue, if_neg fun h => hdue (hshift.mp h)]

/-- **A step whose readings agree at both clocks is the same step.** -/
theorem follows_of_steady {d : UInt32} {s : CtrlOtaCtx × Eeprom} {i : CtrlEvent} (h : Steady s i)
    (hd : Steady (shift d s) (shiftEvent d i)) : Follows d s i := by
  cases i with
  | reply cmd now =>
    simp only [Follows, ctrlStep, ctrlHandle, shift, shiftEvent, reply_shift]
  | tick now =>
    have hp : ctrlOtaProcess (shiftCtx d s.1) s.2 (now + d) =
        (shiftCtx d (ctrlOtaProcess s.1 s.2 now).1, (ctrlOtaProcess s.1 s.2 now).2) := by
      by_cases hs : s.1.state = .sendRequest
      · refine process_shift_request d s.2 hs ?_
        have hagree := (clockAgrees_iff _ _).mpr (hd (now + d) rfl hs)
        have hagree' := (clockAgrees_iff _ _).mpr (h now rfl hs)
        rw [hagree', ← sub_shift now _ d]
        exact hagree
      · exact process_shift d s.2 now hs
    have hsame : ctrlOtaIsActive (shiftCtx d s.1) = ctrlOtaIsActive s.1 := rfl
    simp only [Follows, ctrlStep, ctrlHandle, shift, shiftEvent, hsame]
    split_ifs
    · rw [hp]
    · rfl

theorem follows_and_inTime_iff (d : UInt32) (s : CtrlOtaCtx × Eeprom) (i : CtrlEvent) :
    Follows d s i ∧ RequestInTime s i ↔ Steady s i ∧ Steady (shift d s) (shiftEvent d i) := by
  constructor
  · rintro ⟨hfollows, htime⟩
    refine ⟨(requestInTime_iff s i).mp htime, (requestInTime_iff _ _).mp ?_⟩
    intro now hi hs
    cases i with
    | reply cmd t => cases hi
    | tick t =>
      cases hi
      have hsend : ctrlOtaSendRequest (shift d s).1 = ctrlOtaSendRequest s.1 := rfl
      rw [hfollows, hsend, htime t rfl hs]
      show _ ↔ 30 ≤ t + d - (s.1.lastRequestTime + d)
      rw [sub_shift]
  · rintro ⟨h, hd⟩
    exact ⟨follows_of_steady h hd, (requestInTime_iff s i).mpr h⟩

/-! ### Runs -/

theorem sameRun_cons (d : UInt32) (s : CtrlOtaCtx × Eeprom) (i : CtrlEvent) (is : List CtrlEvent) :
    SameRun d s (i :: is) ↔ Follows d s i ∧ SameRun d (ctrlStep s i).1 is := by
  have hcons : Follows d s i → ∀ xs : List CtrlEvent,
      final ctrlStep (shift d s) ((i :: xs).map (shiftEvent d)) =
          final ctrlStep (shift d (ctrlStep s i).1) (xs.map (shiftEvent d)) ∧
        outs ctrlStep (shift d s) ((i :: xs).map (shiftEvent d)) =
          (ctrlStep s i).2 ++ outs ctrlStep (shift d (ctrlStep s i).1) (xs.map (shiftEvent d)) := by
    intro hf xs
    rw [List.map_cons, final_cons, outs_cons, hf]
    exact ⟨rfl, rfl⟩
  constructor
  · intro h
    have hf : Follows d s i := by
      obtain ⟨hfinal, houts⟩ := h [i] (List.cons_prefix_cons.mpr ⟨rfl, List.nil_prefix⟩)
      simp only [List.map_cons, List.map_nil, final_cons, final_nil, outs_cons, outs_nil,
        List.append_nil] at hfinal houts
      exact Prod.ext hfinal houts
    refine ⟨hf, fun xs hxs => ?_⟩
    obtain ⟨hfinal, houts⟩ := h (i :: xs) (List.cons_prefix_cons.mpr ⟨rfl, hxs⟩)
    rw [(hcons hf xs).1] at hfinal
    rw [(hcons hf xs).2] at houts
    exact ⟨hfinal, List.append_cancel_left houts⟩
  · rintro ⟨hf, h⟩ xs hxs
    cases xs with
    | nil => exact ⟨rfl, rfl⟩
    | cons x xs =>
      obtain ⟨rfl, hxs'⟩ := List.cons_prefix_cons.mp hxs
      obtain ⟨hfinal, houts⟩ := h xs hxs'
      rw [(hcons hf xs).1, (hcons hf xs).2, hfinal, houts]
      exact ⟨rfl, rfl⟩

/-- **The pacing depends only on the elapsed time exactly if the readings agree** at every tick in
`SEND_REQUEST`, of the run and of the shifted run. -/
theorem pacedByElapsed_iff (d : UInt32) (s : CtrlOtaCtx × Eeprom) (is : List CtrlEvent) :
    PacedByElapsed d s is ↔ EachStep ctrlStep Steady s is ∧
      EachStep ctrlStep Steady (shift d s) (is.map (shiftEvent d)) := by
  have hfields : ∀ s is, PacedByElapsed d s is ↔
      SameRun d s is ∧ EachStep ctrlStep RequestInTime s is :=
    fun s is => ⟨fun h => ⟨h.sameRun, h.inTime⟩, fun h => ⟨h.1, h.2⟩⟩
  induction is generalizing s with
  | nil =>
    refine iff_of_true ⟨fun xs hxs => ?_, trivial⟩ ⟨trivial, trivial⟩
    rw [List.prefix_nil.mp hxs]
    exact ⟨rfl, rfl⟩
  | cons i is ih =>
    have hstep := follows_and_inTime_iff d s i
    have hrest := ih (ctrlStep s i).1
    rw [hfields] at hrest ⊢
    rw [sameRun_cons, List.map_cons, eachStep_cons, eachStep_cons, eachStep_cons]
    constructor
    · rintro ⟨⟨hf, hsame⟩, htime, htimes⟩
      obtain ⟨hs, hs'⟩ := hstep.mp ⟨hf, htime⟩
      obtain ⟨hr, hr'⟩ := hrest.mp ⟨hsame, htimes⟩
      rw [hf]
      exact ⟨⟨hs, hr⟩, hs', hr'⟩
    · rintro ⟨⟨hs, hr⟩, hs', hr'⟩
      obtain ⟨hf, htime⟩ := hstep.mpr ⟨hs, hs'⟩
      rw [hf] at hr'
      obtain ⟨hsame, htimes⟩ := hrest.mpr ⟨hr, hr'⟩
      exact ⟨⟨hf, hsame⟩, htime, htimes⟩

/-- **No request after the wrap**: the first one goes out five milliseconds before the clock wraps,
and 38 ms later the comparison of the readings holds the next one back. -/
theorem not_pacedByElapsed : ¬ ∀ (e : Eeprom) (pre is : List CtrlEvent) (d : UInt32),
    (∃ g, ctrlOtaSendRequest g ∈ outs ctrlStep (ctrlOtaInit e, e) pre) →
    PacedByElapsed d (final ctrlStep (ctrlOtaInit e, e) pre) is := by
  intro h
  have hsent : ctrlOtaSendRequest (ctrlOtaInit sampleEeprom) ∈
      outs ctrlStep (ctrlOtaInit sampleEeprom, sampleEeprom) [.tick 0xFFFFFFFA] := by decide +kernel
  have hpaced := h sampleEeprom [.tick 0xFFFFFFFA] [.tick 0x20] 0 ⟨_, hsent⟩
  have hsteady := (requestInTime_iff _ _).mp hpaced.inTime.1 0x20 rfl (by decide +kernel)
  exact absurd hsteady (by decide +kernel)

end BleHidUart.CtrlOta.Pacing
