import BleHidUart.CtrlOta.Transfer
import BleHidUart.Lib.Run

/-!
# A finished upload

`COMPLETE` and `FILED` end an upload, `IDLE` is a boot without one: all three are meant to last
until the next boot. The replies `0x0C`, `0x0D` and `0x0A` change the state without looking at it,
so another reply can take the upload up again. `finished_iff` says which: the upload stays finished,
and one that was not pending stays away, exactly when no such reply arrives in these states.
-/

namespace BleHidUart.CtrlOta.Finished

open BleHidUart.Board BleHidUart.CtrlOta.Metadata BleHidUart.CtrlOta.Machine
open BleHidUart.CtrlOta.Moves BleHidUart.CtrlOta.Transfer BleHidUart.Lib.Run BleHidUart.Lib.Word

/-! ### What is meant to last -/

/-- No request and no data frame is among the effects. -/
def SendsNoFrame (fx : List Effect) : Prop :=
  ∀ frame, Effect.uart frame ∈ fx → byteAt frame 7 ≠ ctrlCmdWriteReq ∧ byteAt frame 7 ≠ ctrlCmdData

/-- `COMPLETE` or `FILED`. -/
def IsFinished (g : CtrlOtaCtx) : Prop := g.state = .complete ∨ g.state = .filed

/-- Once the upload is finished, its state stays and no frame goes out. -/
def StaysFinished (s : CtrlOtaCtx × Eeprom) (is : List CtrlEvent) : Prop :=
  ∀ xs ys, xs ++ ys <+: is → IsFinished (final ctrlStep s xs).1 →
    (final ctrlStep s (xs ++ ys)).1.state = (final ctrlStep s xs).1.state ∧
      SendsNoFrame (outs ctrlStep (final ctrlStep s xs) ys)

/-- The upload is never active, and no frame goes out. -/
def StaysInactive (s : CtrlOtaCtx × Eeprom) (is : List CtrlEvent) : Prop :=
  ∀ xs, xs <+: is → ctrlOtaIsActive (final ctrlStep s xs).1 = false ∧
    SendsNoFrame (outs ctrlStep s xs)

/-- A result nobody waits for: a failure in `IDLE` or `COMPLETE`, a verdict on the CRC in
`FILED`. -/
def Revives (g : CtrlOtaCtx) (i : CtrlEvent) : Prop :=
  (g.state = .idle ∨ g.state = .complete) ∧ (IsReply ctrlCmdCrcFail i ∨ IsReply ctrlCmdLenError i) ∨
    g.state = .filed ∧ (IsReply ctrlCmdCrcSuccess i ∨ IsReply ctrlCmdCrcFail i)

instance (g : CtrlOtaCtx) (i : CtrlEvent) : Decidable (Revives g i) :=
  inferInstanceAs (Decidable ((_ ∨ _) ∧ (_ ∨ _) ∨ _ ∧ (_ ∨ _)))

theorem sendsNoFrame_nil : SendsNoFrame [] := fun _ h => by cases h

theorem sendsNoFrame_append {fx gx : List Effect} (hf : SendsNoFrame fx) (hg : SendsNoFrame gx) :
    SendsNoFrame (fx ++ gx) := fun frame h =>
  (List.mem_append.mp h).elim (hf frame) (hg frame)

theorem inactive_iff (g : CtrlOtaCtx) :
    ctrlOtaIsActive g = false ↔ g.state = .idle ∨ g.state = .complete := by
  simp only [ctrlOtaIsActive, decide_eq_false_iff_not]
  tauto

/-! ### One event -/

section Move
variable {g g' : CtrlOtaCtx} {e : Eeprom} {i : CtrlEvent} {fx : List Effect}

/-- **In the three states** an event that does not revive the upload sends no frame and keeps the
state, but for the success reply, which takes `IDLE` to `COMPLETE`. -/
theorem move_quiet (hm : CtrlMove g e i g' fx)
    (hs : g.state = .idle ∨ g.state = .complete ∨ g.state = .filed) (hn : ¬ Revives g i) :
    SendsNoFrame fx ∧ (g'.state = g.state ∨ g.state = .idle ∧ g'.state = .complete) := by
  have hother : ∀ t : CtrlOtaState, t ≠ .idle → t ≠ .complete → t ≠ .filed → g.state ≠ t := by
    intro t h1 h2 h3 ht
    rcases hs with h | h | h
    · exact h1 (ht.symm.trans h)
    · exact h2 (ht.symm.trans h)
    · exact h3 (ht.symm.trans h)
  have hack := hother .waitDataAck (by decide) (by decide) (by decide)
  have hsend := hother .sendData (by decide) (by decide) (by decide)
  have hreq := hother .sendRequest (by decide) (by decide) (by decide)
  have hnotify : ∀ r : UInt8, SendsNoFrame [ctrlOtaNotifyResult r] := by
    intro r frame h
    simp [ctrlOtaNotifyResult] at h
  cases hm with
  | stay i _ => exact ⟨sendsNoFrame_nil, .inl rfl⟩
  | failed now _ => exact ⟨hnotify _, .inl rfl⟩
  | success now =>
    have hnofiled : g.state ≠ .filed := fun h => hn (.inr ⟨h, .inl rfl⟩)
    refine ⟨?_, ?_⟩
    · intro frame h
      simp [ctrlOtaNotifyResult, writeFlag, eepromWrite] at h
    · rcases hs with h | h | h
      · exact .inr ⟨h, rfl⟩
      · exact .inl h.symm
      · exact absurd h hnofiled
  | crcFail now =>
    rcases hs with h | h | h
    · exact absurd (.inl ⟨.inl h, .inl rfl⟩) hn
    · exact absurd (.inl ⟨.inr h, .inl rfl⟩) hn
    · exact absurd (.inr ⟨h, .inr rfl⟩) hn
  | refused cmd now hc =>
    rcases hc with ⟨-, h⟩ | rfl
    · exact absurd h hack
    rcases hs with h | h | h
    · exact absurd (.inl ⟨.inl h, .inr rfl⟩) hn
    · exact absurd (.inl ⟨.inr h, .inr rfl⟩) hn
    · exact ⟨hnotify _, .inl h.symm⟩
  | request now h | confirm now h => exact absurd h hreq
  | finish now h | send now h => exact absurd h hsend
  | timeout now h | ackLast now h | ackMore now h => exact absurd h hack
  | restart now h => exact absurd h (hother .error (by decide) (by decide) (by decide))
  | erased now h =>
    exact h.elim (fun h => absurd h hreq) fun h =>
      absurd h (hother .waitConfirm (by decide) (by decide) (by decide))

/-- **One that revives it** changes the state, and what was idle is active. -/
theorem handle_revives (hr : Revives g i) :
    (ctrlHandle g e i).1.state ≠ g.state ∧
      (g.state = .idle → ctrlOtaIsActive (ctrlHandle g e i).1 = true) := by
  have hfail : ∀ now, (ctrlHandle g e (.reply ctrlCmdCrcFail now)).1 = { g with state := .error } :=
    fun _ => rfl
  have hlen : ∀ now, (ctrlHandle g e (.reply ctrlCmdLenError now)).1 = { g with state := .filed } :=
    fun _ => rfl
  have hok : ∀ now, (ctrlHandle g e (.reply ctrlCmdCrcSuccess now)).1 =
      { g with state := .complete } :=
    fun _ => rfl
  cases i with
  | tick now => rcases hr with ⟨-, h | h⟩ | ⟨-, h | h⟩ <;> exact absurd h (isReply_tick _ _)
  | reply cmd now =>
    simp only [Revives, isReply_reply] at hr
    rcases hr with ⟨hs, rfl | rfl⟩ | ⟨hs, rfl | rfl⟩
    · rw [hfail]
      exact ⟨by rcases hs with h | h <;> simp [h], fun _ => rfl⟩
    · rw [hlen]
      exact ⟨by rcases hs with h | h <;> simp [h], fun _ => rfl⟩
    · rw [hok]
      exact ⟨by simp [hs], by simp [hs]⟩
    · rw [hfail]
      exact ⟨by simp [hs], fun _ => rfl⟩

theorem idle_of_move (hm : CtrlMove g e i g' fx) (h : g'.state = .idle) : g.state = .idle := by
  cases hm with
  | stay | failed => exact h
  | request now hs => exact absurd (hs.symm.trans h) (by decide)
  | finish | send | timeout | restart | confirm | erased | ackLast | ackMore | success | crcFail
  | refused => cases h

end Move

/-! ### Runs -/

variable {s : CtrlOtaCtx × Eeprom}

/-- A finished upload is finished after every run that does not revive it. -/
theorem finished_run (hs : IsFinished s.1) {is : List CtrlEvent}
    (hn : EachStep ctrlStep (fun s i => ¬ Revives s.1 i) s is) :
    (final ctrlStep s is).1.state = s.1.state ∧ SendsNoFrame (outs ctrlStep s is) := by
  induction is generalizing s with
  | nil => exact ⟨rfl, sendsNoFrame_nil⟩
  | cons i is ih =>
    have hquiet : s.1.state = .idle ∨ s.1.state = .complete ∨ s.1.state = .filed := .inr hs
    obtain ⟨hfx, hstate⟩ := move_quiet (ctrlHandle_move s.1 s.2 i) hquiet hn.1
    have hkeep : (ctrlStep s i).1.1.state = s.1.state := by
      rcases hstate with h | ⟨h, -⟩
      · exact h
      · exact absurd h (by rcases hs with h' | h' <;> simp [h'])
    have hnext : IsFinished (ctrlStep s i).1.1 := by
      unfold IsFinished
      rw [hkeep]
      exact hs
    obtain ⟨hlast, hrest⟩ := ih hnext hn.2
    exact ⟨hlast.trans hkeep, sendsNoFrame_append hfx hrest⟩

theorem inactive_run (hs : ctrlOtaIsActive s.1 = false) {is : List CtrlEvent}
    (hn : EachStep ctrlStep (fun s i => ¬ Revives s.1 i) s is) :
    ctrlOtaIsActive (final ctrlStep s is).1 = false ∧ SendsNoFrame (outs ctrlStep s is) := by
  induction is generalizing s with
  | nil => exact ⟨hs, sendsNoFrame_nil⟩
  | cons i is ih =>
    have hinactive := (inactive_iff s.1).mp hs
    have hquiet : s.1.state = .idle ∨ s.1.state = .complete ∨ s.1.state = .filed :=
      hinactive.imp_right .inl
    obtain ⟨hfx, hstate⟩ := move_quiet (ctrlHandle_move s.1 s.2 i) hquiet hn.1
    have hnext : ctrlOtaIsActive (ctrlStep s i).1.1 = false := by
      refine (inactive_iff _).mpr ?_
      rcases hstate with h | ⟨-, h⟩
      · have hsame : (ctrlStep s i).1.1.state = s.1.state := h
        rw [hsame]
        exact hinactive
      · exact .inr h
    obtain ⟨hlast, hrest⟩ := ih hnext hn.2
    exact ⟨hlast, sendsNoFrame_append hfx hrest⟩

/-- `IDLE` is only ever the state of a boot without the ready flag. -/
theorem not_ready_of_idle {e : Eeprom} {is : List CtrlEvent}
    (h : (final ctrlStep (ctrlOtaInit e, e) is).1.state = .idle) :
    flagByte e ≠ ctrlOtaFlagReady := by
  intro hf
  have hnot : ∀ (s : CtrlOtaCtx × Eeprom) (i : CtrlEvent), s.1.state ≠ .idle →
      (ctrlStep s i).1.1.state ≠ .idle := fun s i hs hi =>
    hs (idle_of_move (ctrlHandle_move s.1 s.2 i) hi)
  refine final_invariant hnot ?_ is h
  rw [ctrlOtaInit_ready hf]
  exact fun h => by cases h

/-- **A finished upload stays finished, and one that was not pending stays inactive, exactly when no
reply revives it**: in every run from a boot. -/
theorem finished_iff (e : Eeprom) (is : List CtrlEvent) :
    StaysFinished (ctrlOtaInit e, e) is ∧
        (flagByte e ≠ ctrlOtaFlagReady → StaysInactive (ctrlOtaInit e, e) is) ↔
      EachStep ctrlStep (fun s i => ¬ Revives s.1 i) (ctrlOtaInit e, e) is := by
  constructor
  · rintro ⟨hfin, hinact⟩
    refine eachStep_iff_forall.mpr fun xs i ys hsplit hr => ?_
    have hprefix : xs ++ [i] <+: is := ⟨ys, by rw [hsplit, List.append_assoc]; rfl⟩
    have hstep : final ctrlStep (ctrlOtaInit e, e) (xs ++ [i]) =
        (ctrlStep (final ctrlStep (ctrlOtaInit e, e) xs) i).1 := final_append _ _ _ _
    obtain ⟨hchange, hactive⟩ := handle_revives (e := (final ctrlStep (ctrlOtaInit e, e) xs).2) hr
    by_cases hidle : (final ctrlStep (ctrlOtaInit e, e) xs).1.state = .idle
    · have hoff := (hinact (not_ready_of_idle hidle) (xs ++ [i]) hprefix).1
      rw [hstep] at hoff
      exact Bool.false_ne_true (hoff.symm.trans (hactive hidle))
    · have hfinished : IsFinished (final ctrlStep (ctrlOtaInit e, e) xs).1 := by
        rcases hr with ⟨h | h, -⟩ | ⟨h, -⟩
        · exact absurd h hidle
        · exact .inl h
        · exact .inr h
      have hkeep := (hfin xs [i] hprefix hfinished).1
      rw [hstep] at hkeep
      exact hchange hkeep
  · intro hn
    refine ⟨fun xs ys hxy hfin => ?_, fun hf xs hxs => ?_⟩
    · obtain ⟨zs, rfl⟩ := hxy
      rw [eachStep_append, eachStep_append] at hn
      rw [final_append]
      exact finished_run hfin hn.1.2
    · obtain ⟨zs, rfl⟩ := hxs
      rw [eachStep_append] at hn
      refine inactive_run ?_ hn.1
      rw [ctrlOtaInit_idle hf]
      rfl

/-- **A finished upload can start over**: the success reply and a failure reply are in the same UART
buffer, so the main loop finds the upload in its error state and requests it again. -/
theorem not_finished_crcFail : ¬ ∀ (e : Eeprom) (is : List CtrlEvent),
    StaysFinished (ctrlOtaInit e, e) is ∧
      (flagByte e ≠ ctrlOtaFlagReady → StaysInactive (ctrlOtaInit e, e) is) := by
  intro hall
  have h := (hall sampleEeprom
    [.reply ctrlCmdCrcSuccess 40, .reply ctrlCmdCrcFail 40, .tick 45, .tick 80]).1
    [.reply ctrlCmdCrcSuccess 40] [.reply ctrlCmdCrcFail 40, .tick 45, .tick 80]
    (List.prefix_refl _) (.inl (by decide))
  exact absurd h.1 (by decide)

end BleHidUart.CtrlOta.Finished
