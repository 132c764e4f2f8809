import BleHidUart.CtrlOta.Percent
import BleHidUart.CtrlOta.Progress
import BleHidUart.Ota.Receive

/-!
# A controller that plays along

The controller takes the request, erases its flash, answers the data frames and reports that the CRC
is right. It may ask for patience first, a frame or its ACK may be lost on the way any number of
times, and the loop of `main` goes round as often as it likes in between. `upload_completes`: after
such a dialogue the upload is `COMPLETE`, the controller was sent exactly the frames in `sentFrom`,
the app has got a percentage for each ACK, and all that has changed in the EEPROM is the flag.
-/

namespace BleHidUart.CtrlOta.Dialogue

open BleHidUart.Board BleHidUart.CtrlOta.Machine BleHidUart.CtrlOta.Metadata
open BleHidUart.CtrlOta.Moves BleHidUart.CtrlOta.Percent BleHidUart.CtrlOta.Progress
open BleHidUart.CtrlOta.Transfer BleHidUart.Lib.Memory BleHidUart.Lib.Run BleHidUart.Ota.Receive

/-! ### What the controller says -/

/-- A data frame goes out at `sent`; then the loop goes round at `waits`. -/
structure Pause where
  sent : UInt32
  waits : List UInt32

/-- The ACK timeout does not fire in the pause. -/
def Pause.Short (p : Pause) : Prop := ∀ now ∈ p.waits, now - p.sent < 500

instance (p : Pause) : Decidable p.Short :=
  List.decidableBAll (fun now => now - p.sent < 500) p.waits

def Pause.events (p : Pause) : List CtrlEvent := .tick p.sent :: p.waits.map .tick

/-- A data frame without an answer: the timeout fires at `late`. -/
structure Lost where
  pause : Pause
  late : UInt32

structure Lost.Ok (l : Lost) : Prop where
  short : l.pause.Short
  late : 500 ≤ l.late - l.pause.sent

instance (l : Lost) : Decidable l.Ok :=
  decidable_of_iff (_ ∧ _) ⟨fun h => ⟨h.1, h.2⟩, fun h => ⟨h.1, h.2⟩⟩

def Lost.events (l : Lost) : List CtrlEvent := l.pause.events ++ [.tick l.late]

/-- A chunk of the image: it is sent in vain for a while, and then the ACK comes in time. -/
structure Exchange where
  lost : List Lost
  pause : Pause
  acked : UInt32

structure Exchange.Ok (x : Exchange) : Prop where
  lost : ∀ l ∈ x.lost, l.Ok
  short : x.pause.Short

instance (x : Exchange) : Decidable x.Ok :=
  decidable_of_iff ((∀ l ∈ x.lost, l.Ok) ∧ x.pause.Short) ⟨fun h => ⟨h.1, h.2⟩, fun h => ⟨h.1, h.2⟩⟩

def Exchange.events (x : Exchange) : List CtrlEvent :=
  x.lost.flatMap Lost.events ++ x.pause.events ++ [.reply ctrlCmdDataAck x.acked]

/-- The event decides nothing: it is no verdict on the upload. -/
structure Open (i : CtrlEvent) : Prop where
  success : ¬ IsReply ctrlCmdCrcSuccess i
  crcFail : ¬ IsReply ctrlCmdCrcFail i
  lenError : ¬ IsReply ctrlCmdLenError i

instance (i : CtrlEvent) : Decidable (Open i) :=
  decidable_of_iff (_ ∧ _ ∧ _) ⟨fun h => ⟨h.1, h.2.1, h.2.2⟩, fun h => ⟨h.1, h.2, h.3⟩⟩

/-- What the controller and the clock do in an upload. -/
structure Conversation where
  asking : List CtrlEvent
  erased : UInt32
  exchanges : List Exchange
  checking : List CtrlEvent
  done : UInt32

/-- The conversation is one about `n` chunks. -/
structure Conversation.Ok (d : Conversation) (n : ℕ) : Prop where
  asking : ∀ i ∈ d.asking, Open i ∧ ¬ IsReply ctrlCmdFlashEraseOk i
  exchanges : ∀ x ∈ d.exchanges, x.Ok
  checking : ∀ i ∈ d.checking, Open i
  chunks : d.exchanges.length = n

def Conversation.events (d : Conversation) : List CtrlEvent :=
  d.asking ++ .reply ctrlCmdFlashEraseOk d.erased :: d.exchanges.flatMap Exchange.events ++
    d.checking ++ [.reply ctrlCmdCrcSuccess d.done]

/-! ### What the firmware says -/

/-- The data frame with which the rest of the image is begun. -/
def chunkFrame (rest : List UInt8) : List UInt8 :=
  ctrlOtaHeader ++ UInt8.ofNat (10 + min 200 rest.length) :: ctrlCmdData ::
    (if 200 < rest.length then 0x01 else 0x00) :: rest.take 200 ++ [ctrlOtaCrc8 (rest.take 200)]

/-- The data frames for the rest of the image: each chunk once more than it was lost. -/
def sentFrom : List UInt8 → List Exchange → List (List UInt8)
  | _, [] => []
  | rest, x :: xs =>
    List.replicate (x.lost.length + 1) (chunkFrame rest) ++ sentFrom (rest.drop 200) xs

/-- A report that `sent` of `len` bytes have arrived, as the app gets it. -/
def progressOf (len sent : ℕ) : List UInt8 × ℕ :=
  ([0x53, 0x35, ctrlOtaV3Progress, 0x05, UInt8.ofNat (percent len sent)], 5)

/-- The reports on the rest of an image of `len` bytes. -/
def reportsFrom (len : ℕ) : List UInt8 → List Exchange → List (List UInt8 × ℕ)
  | _, [] => []
  | rest, _ :: xs =>
    progressOf len (len - (rest.drop 200).length) :: reportsFrom len (rest.drop 200) xs

/-- The report of the success. -/
def resultOk : List UInt8 × ℕ := ([0x53, 0x35, ctrlOtaV3Result, 0x05, ctrlOtaResultOk], 5)

theorem payload_chunkFrame (rest : List UInt8) : payload (chunkFrame rest) = rest.take 200 := by
  unfold payload chunkFrame ctrlOtaHeader
  simp

theorem payloads_sentFrom {rest : List UInt8} {xs : List Exchange}
    (hcount : xs.length = (rest.length + 199) / 200) (hno : ∀ x ∈ xs, x.lost = []) :
    ((sentFrom rest xs).map payload).flatten = rest := by
  induction xs generalizing rest with
  | nil =>
    rw [List.length_nil] at hcount
    exact (List.length_eq_zero_iff.mp (by omega)).symm
  | cons x xs ih =>
    obtain ⟨hx, hno⟩ := List.forall_mem_cons.mp hno
    have hrest : xs.length = ((rest.drop 200).length + 199) / 200 := by
      rw [List.length_cons] at hcount
      rw [List.length_drop]
      omega
    have hsent : sentFrom rest (x :: xs) = chunkFrame rest :: sentFrom (rest.drop 200) xs := by
      rw [sentFrom, hx]
      rfl
    rw [hsent, List.map_cons, List.flatten_cons, ih hrest hno, payload_chunkFrame,
      List.take_append_drop]

variable {e : Eeprom} {len : ℕ}

theorem frameAt_eq_chunkFrame {off : ℕ} (h : off ≤ len) :
    frameAt e len off = chunkFrame (slice e off (len - off)) := by
  have hmore : off + min 200 (len - off) < len ↔ 200 < len - off := by omega
  unfold frameAt chunkFrame chunkAt
  simp only [take_slice, length_slice, hmore]

/-! ### One chunk -/

/-- The upload is in the state `st`, with `rest` still to be acknowledged of the `len` bytes in
`e`. -/
structure At (e : Eeprom) (len : ℕ) (st : CtrlOtaState) (rest : List UInt8)
    (s : CtrlOtaCtx × Eeprom) : Prop where
  ctrl : CtrlInv s.1
  state : s.1.state = st
  eeprom : s.2 = e
  length : s.1.fileLength.toNat = len
  fits : len ≤ flagAddr
  rest : slice e s.1.sentLength.toNat (len - s.1.sentLength.toNat) = rest

variable {rest : List UInt8} {st : CtrlOtaState} {s : CtrlOtaCtx × Eeprom}

theorem At.length_rest (h : At e len st rest s) : s.1.sentLength.toNat + rest.length = len := by
  have hle := h.ctrl.sent_le
  rw [h.length] at hle
  rw [← h.rest, length_slice]
  omega

theorem At.step (h : At e len st rest s) {i : CtrlEvent} (hi : ¬ IsReply ctrlCmdCrcSuccess i)
    {st' : CtrlOtaState} {rest' : List UInt8} (hst : (ctrlHandle s.1 s.2 i).1.state = st')
    (hrest : slice e (ctrlHandle s.1 s.2 i).1.sentLength.toNat
      (len - (ctrlHandle s.1 s.2 i).1.sentLength.toNat) = rest') :
    At e len st' rest' (ctrlStep s i).1 := by
  have hm := ctrlHandle_move s.1 s.2 i
  have hee := applyEffects_move hm
  rw [if_neg hi] at hee
  exact ⟨h.ctrl.move hm, hst, hee.trans h.eeprom, (congrArg _ (move_file hm).1).trans h.length,
    h.fits, hrest⟩

theorem At.send (h : At e len .sendData rest s) (hne : rest ≠ []) (now : UInt32) :
    At e len .waitDataAck rest (ctrlStep s (.tick now)).1 ∧
      (ctrlStep s (.tick now)).1.1.lastRequestTime = now ∧
      (ctrlStep s (.tick now)).2 = [.uart (chunkFrame rest)] := by
  have hlen := h.length_rest
  have hpos := List.length_pos_iff.mpr hne
  have hle : s.1.sentLength.toNat ≤ len := by omega
  have hrem : ¬ s.1.fileLength - s.1.sentLength = 0 := fun h0 => by
    have hsent := congrArg UInt32.toNat ((sub_eq_zero_iff s.1).mp h0)
    rw [h.length] at hsent
    omega
  have hstep : ctrlHandle s.1 s.2 (.tick now) =
      ({ s.1 with state := .waitDataAck, lastRequestTime := now },
      [.uart (dataFrame s.1 s.2)]) := by
    rw [ctrlHandle_tick]
    unfold ctrlOtaProcess
    rw [h.state]
    exact if_neg hrem
  have hframe : dataFrame s.1 s.2 = chunkFrame rest := by
    rw [dataFrame_eq_frameAt h.ctrl (h.length.trans_le h.fits) fun a _ => congrFun h.eeprom a,
      h.length, frameAt_eq_chunkFrame hle, h.rest]
  have hat := h.step (isReply_tick _ now) (congrArg (fun r => r.1.state) hstep)
    ((congrArg (fun r => slice e r.1.sentLength.toNat (len - r.1.sentLength.toNat)) hstep).trans
      h.rest)
  rw [hframe] at hstep
  exact ⟨hat, congrArg (fun r => r.1.lastRequestTime) hstep, congrArg Prod.snd hstep⟩

theorem At.wait {last : UInt32} (h : At e len .waitDataAck rest s)
    (hlast : s.1.lastRequestTime = last) {ticks : List UInt32}
    (hticks : ∀ now ∈ ticks, now - last < 500) :
    final ctrlStep s (ticks.map .tick) = s ∧ outs ctrlStep s (ticks.map .tick) = [] := by
  induction ticks with
  | nil => exact ⟨rfl, rfl⟩
  | cons now ticks ih =>
    obtain ⟨hnow, hticks⟩ := List.forall_mem_cons.mp hticks
    have hstep : ctrlHandle s.1 s.2 (.tick now) = (s.1, []) := by
      rw [ctrlHandle_tick]
      unfold ctrlOtaProcess
      rw [h.state]
      exact if_neg (UInt32.not_le.mpr (hlast ▸ hnow))
    have hsame : ctrlStep s (.tick now) = (s, []) := by
      unfold ctrlStep
      rw [hstep]
      rfl
    rw [List.map_cons, final_cons, outs_cons, hsame]
    exact ih hticks

theorem At.timeout {last late : UInt32} (h : At e len .waitDataAck rest s)
    (hlast : s.1.lastRequestTime = last) (hlate : 500 ≤ late - last) :
    At e len .sendData rest (ctrlStep s (.tick late)).1 ∧ (ctrlStep s (.tick late)).2 = [] := by
  have hstep : ctrlHandle s.1 s.2 (.tick late) = ({ s.1 with state := .sendData }, []) := by
    rw [ctrlHandle_tick]
    unfold ctrlOtaProcess
    rw [h.state]
    exact if_pos (hlast ▸ hlate)
  exact ⟨h.step (isReply_tick _ late) (congrArg (fun r => r.1.state) hstep)
    ((congrArg (fun r => slice e r.1.sentLength.toNat (len - r.1.sentLength.toNat)) hstep).trans
      h.rest),
    congrArg Prod.snd hstep⟩

theorem At.pause (h : At e len .sendData rest s) (hne : rest ≠ []) {p : Pause} (hp : p.Short) :
    At e len .waitDataAck rest (final ctrlStep s p.events) ∧
      (final ctrlStep s p.events).1.lastRequestTime = p.sent ∧
      outs ctrlStep s p.events = [.uart (chunkFrame rest)] := by
  obtain ⟨hat, hlast, hfx⟩ := h.send hne p.sent
  obtain ⟨hfinal, houts⟩ := hat.wait hlast hp
  rw [Pause.events, final_cons, outs_cons, hfinal, houts, hfx]
  exact ⟨hat, hlast, rfl⟩

theorem At.lost (h : At e len .sendData rest s) (hne : rest ≠ []) {ls : List Lost}
    (hls : ∀ l ∈ ls, l.Ok) :
    At e len .sendData rest (final ctrlStep s (ls.flatMap Lost.events)) ∧
      outs ctrlStep s (ls.flatMap Lost.events) =
        List.replicate ls.length (.uart (chunkFrame rest)) := by
  induction ls generalizing s with
  | nil => exact ⟨h, rfl⟩
  | cons l ls ih =>
    obtain ⟨⟨hshort, hlate⟩, hls⟩ := List.forall_mem_cons.mp hls
    obtain ⟨hwait, hlast, hsent⟩ := h.pause hne hshort
    obtain ⟨hagain, hquiet⟩ := hwait.timeout hlast hlate
    obtain ⟨hat, houts⟩ := ih hagain hls
    rw [List.flatMap_cons, Lost.events, List.append_assoc, final_append, outs_append, hsent,
      List.singleton_append, final_cons, outs_cons, hquiet, houts]
    exact ⟨hat, rfl⟩

theorem ack_of_move {g g' : CtrlOtaCtx} {i : CtrlEvent} {fx : List Effect}
    (hm : CtrlMove g e i g' fx) (hi : IsReply ctrlCmdDataAck i) (hs : g.state = .waitDataAck) :
    g'.state =
        (if (ctrlOtaAdvanceData g).sentLength = g.fileLength then .waitComplete else .sendData) ∧
      g'.sentLength = (ctrlOtaAdvanceData g).sentLength ∧
      fx = [ctrlOtaNotifyProgress (ctrlOtaAdvanceData g).sentLength g.fileLength] := by
  cases hm with
  | ackLast now _ hl => exact ⟨(if_pos hl).symm, rfl, rfl⟩
  | ackMore now _ hl => exact ⟨(if_neg hl).symm, rfl, rfl⟩
  | stay i hp => exact absurd ⟨hi, hs⟩ hp.ack
  | failed | request | finish | send | timeout | restart => exact absurd hi (isReply_tick _ _)
  | confirm | erased | success | crcFail => exact absurd ((isReply_reply _ _ _).mp hi) (by decide)
  | refused cmd now hc =>
    obtain rfl := (isReply_reply _ _ _).mp hi
    exact absurd hc (by rw [hs]; decide)

theorem At.ack (h : At e len .waitDataAck rest s) (now : UInt32) :
    At e len (if rest.drop 200 = [] then .waitComplete else .sendData) (rest.drop 200)
        (ctrlStep s (.reply ctrlCmdDataAck now)).1 ∧
      (ctrlStep s (.reply ctrlCmdDataAck now)).2 =
        [.notify (progressOf len (len - (rest.drop 200).length)).1 5] := by
  have hlen := h.length_rest
  have hpos := lt_of_le_of_ne h.ctrl.sent_le fun heq =>
    h.ctrl.pending h.state (UInt32.toNat_inj.mp heq)
  have hdrop : (rest.drop 200).length = rest.length - 200 := List.length_drop
  rw [h.length] at hpos
  have hadv : (ctrlOtaAdvanceData s.1).sentLength.toNat = len - (rest.drop 200).length := by
    rw [toNat_advance h.ctrl, toNat_ctrlOtaChunk h.ctrl, h.length]
    omega
  have hlast : (ctrlOtaAdvanceData s.1).sentLength = s.1.fileLength ↔ rest.drop 200 = [] := by
    rw [← UInt32.toNat_inj, hadv, h.length, ← List.length_eq_zero_iff]
    omega
  have hrest : slice e (len - (rest.drop 200).length) (len - (len - (rest.drop 200).length)) =
      rest.drop 200 := by
    rcases le_total rest.length 200 with hfew | hmany
    · rw [List.drop_of_length_le hfew, List.length_nil, Nat.sub_zero, Nat.sub_self, slice_zero]
    · have hoff : len - (rest.drop 200).length = s.1.sentLength.toNat + 200 := by omega
      rw [hoff, ← Nat.sub_sub, ← drop_slice, h.rest]
  obtain ⟨hstate, hsent, hfx⟩ :=
    ack_of_move (ctrlHandle_move s.1 s.2 (.reply ctrlCmdDataAck now)) rfl h.state
  have hpct := toNat_pct (h.length.symm ▸ hpos.pos) (h.length.trans_le h.fits) h.ctrl.advance_le
  rw [h.length, hadv] at hpct
  have hreport : ctrlOtaNotifyProgress (ctrlOtaAdvanceData s.1).sentLength s.1.fileLength =
      .notify (progressOf len (len - (rest.drop 200).length)).1 5 := by
    unfold progressOf
    rw [← hpct, UInt8.ofNat_toNat]
    rfl
  rw [hreport] at hfx
  simp only [hlast] at hstate
  rw [← hadv, ← hsent] at hrest
  exact ⟨h.step (fun hi => absurd ((isReply_reply _ _ _).mp hi) (by decide)) hstate hrest, hfx⟩

/-- A chunk and its ACK, whatever is lost before. -/
theorem At.exchange (h : At e len .sendData rest s) (hne : rest ≠ []) {x : Exchange} (hx : x.Ok) :
    At e len (if rest.drop 200 = [] then .waitComplete else .sendData) (rest.drop 200)
        (final ctrlStep s x.events) ∧
      outs ctrlStep s x.events = List.replicate (x.lost.length + 1) (.uart (chunkFrame rest)) ++
        [.notify (progressOf len (len - (rest.drop 200).length)).1 5] := by
  obtain ⟨hlost, hagain⟩ := h.lost hne hx.lost
  obtain ⟨hwait, -, hsent⟩ := hlost.pause hne hx.short
  obtain ⟨hat, hack⟩ := hwait.ack x.acked
  rw [Exchange.events, List.append_assoc, final_append, final_append, outs_append, outs_append,
    hagain, hsent, final_cons, final_nil, outs_cons, outs_nil, hack, List.replicate_succ']
  exact ⟨hat, by rw [List.append_assoc]; rfl⟩

theorem replicate_chunkFrame (rest : List UInt8) (n : ℕ) :
    dataFrames (List.replicate n (.uart (chunkFrame rest))) = List.replicate n (chunkFrame rest) ∧
      notifications (List.replicate n (.uart (chunkFrame rest))) = [] := by
  induction n with
  | zero => exact ⟨rfl, rfl⟩
  | succ n ih => exact ⟨congrArg (chunkFrame rest :: ·) ih.1, ih.2⟩

/-- **The image, chunk by chunk.** -/
theorem At.image {xs : List Exchange} (h : At e len .sendData rest s) (hne : rest ≠ [])
    (hxs : ∀ x ∈ xs, x.Ok) (hcount : xs.length = (rest.length + 199) / 200) :
    At e len .waitComplete [] (final ctrlStep s (xs.flatMap Exchange.events)) ∧
      dataFrames (outs ctrlStep s (xs.flatMap Exchange.events)) = sentFrom rest xs ∧
      notifications (outs ctrlStep s (xs.flatMap Exchange.events)) = reportsFrom len rest xs := by
  induction xs generalizing rest s with
  | nil =>
    have hpos := List.length_pos_iff.mpr hne
    rw [List.length_nil] at hcount
    omega
  | cons x xs ih =>
    obtain ⟨hx, hxs⟩ := List.forall_mem_cons.mp hxs
    obtain ⟨hat, hout⟩ := h.exchange hne hx
    obtain ⟨hsent, hquiet⟩ := replicate_chunkFrame rest (x.lost.length + 1)
    have hframes : dataFrames (outs ctrlStep s x.events) =
        List.replicate (x.lost.length + 1) (chunkFrame rest) := by
      rw [hout, dataFrames_append, hsent]
      exact List.append_nil _
    have hnotes : notifications (outs ctrlStep s x.events) =
        [progressOf len (len - (rest.drop 200).length)] := by
      rw [hout, notifications_append, hquiet]
      rfl
    rw [List.flatMap_cons, final_append, outs_append, dataFrames_append, notifications_append,
      hframes, hnotes]
    by_cases hd : rest.drop 200 = []
    · have hxs0 : xs = [] := by
        rw [List.drop_eq_nil_iff] at hd
        rw [List.length_cons] at hcount
        exact List.length_eq_zero_iff.mp (by omega)
      subst hxs0
      rw [if_pos hd, hd] at hat
      exact ⟨hat, rfl, rfl⟩
    · rw [if_neg hd] at hat
      obtain ⟨hend, hframes', hnotes'⟩ := ih hat hd hxs (by
        rw [List.drop_eq_nil_iff] at hd
        rw [List.length_cons] at hcount
        rw [List.length_drop]
        omega)
      rw [hframes', hnotes']
      exact ⟨hend, rfl, rfl⟩

/-! ### Before and after the chunks -/

/-- Before the erase is confirmed. -/
def Asking (g : CtrlOtaCtx) : Prop := g.state = .sendRequest ∨ g.state = .waitConfirm

section Moves
variable {g g' : CtrlOtaCtx} {ee : Eeprom} {i : CtrlEvent} {fx : List Effect}

theorem asking_of_move (hm : CtrlMove g ee i g' fx) (hs : Asking g) (hi : Open i)
    (he : ¬ IsReply ctrlCmdFlashEraseOk i) :
    Asking g' ∧ g'.sentLength = g.sentLength ∧ dataFrames fx = [] ∧ notifications fx = [] := by
  have hother : ∀ {st : CtrlOtaState},
      g.state = st → st ≠ .sendRequest → st ≠ .waitConfirm → False :=
    fun h h1 h2 => hs.elim (fun hs => h1 (h.symm.trans hs)) fun hs => h2 (h.symm.trans hs)
  cases hm with
  | stay => exact ⟨hs, rfl, rfl, rfl⟩
  | request now hr => exact ⟨.inl hr, rfl, rfl, rfl⟩
  | confirm => exact ⟨.inr rfl, rfl, rfl, rfl⟩
  | erased => exact absurd rfl he
  | success => exact absurd rfl hi.success
  | crcFail => exact absurd rfl hi.crcFail
  | refused cmd now hc =>
    rcases hc with ⟨-, h⟩ | rfl
    · exact (hother h (by decide) (by decide)).elim
    · exact absurd rfl hi.lenError
  | failed _ h | finish _ h | send _ h | timeout _ h | restart _ h | ackLast _ h | ackMore _ h =>
    exact (hother h (by decide) (by decide)).elim

theorem checking_of_move (hm : CtrlMove g ee i g' fx) (hs : g.state = .waitComplete) (hi : Open i) :
    g' = g ∧ fx = [] := by
  have hother : ∀ {st : CtrlOtaState}, g.state = st → st ≠ .waitComplete → False :=
    fun h h1 => h1 (h.symm.trans hs)
  cases hm with
  | stay => exact ⟨rfl, rfl⟩
  | success => exact absurd rfl hi.success
  | crcFail => exact absurd rfl hi.crcFail
  | refused cmd now hc =>
    rcases hc with ⟨-, h⟩ | rfl
    · exact (hother h (by decide)).elim
    · exact absurd rfl hi.lenError
  | erased now h => exact (h.elim (hother · (by decide)) (hother · (by decide))).elim
  | failed _ h | request _ h | finish _ h | send _ h | timeout _ h | restart _ h | confirm _ h
  | ackLast _ h | ackMore _ h => exact (hother h (by decide)).elim

end Moves

theorem At.asking (h : At e len s.1.state rest s) (hs : Asking s.1) {is : List CtrlEvent}
    (his : ∀ i ∈ is, Open i ∧ ¬ IsReply ctrlCmdFlashEraseOk i) :
    At e len (final ctrlStep s is).1.state rest (final ctrlStep s is) ∧
      Asking (final ctrlStep s is).1 ∧
      dataFrames (outs ctrlStep s is) = [] ∧ notifications (outs ctrlStep s is) = [] := by
  induction is generalizing s with
  | nil => exact ⟨h, hs, rfl, rfl⟩
  | cons i is ih =>
    obtain ⟨⟨hi, he⟩, his⟩ := List.forall_mem_cons.mp his
    obtain ⟨hasking, hsent, hframes, hnotes⟩ := asking_of_move (ctrlHandle_move s.1 s.2 i) hs hi he
    have hrest : slice e (ctrlHandle s.1 s.2 i).1.sentLength.toNat
        (len - (ctrlHandle s.1 s.2 i).1.sentLength.toNat) = rest := by rw [hsent, h.rest]
    have hat := h.step hi.success rfl hrest
    obtain ⟨hend, hasks, hframes', hnotes'⟩ := ih (s := (ctrlStep s i).1) hat hasking his
    rw [final_cons, outs_cons, dataFrames_append, notifications_append, hframes', hnotes']
    exact ⟨hend, hasks, (List.append_nil _).trans hframes, (List.append_nil _).trans hnotes⟩

theorem At.erased (h : At e len s.1.state rest s) (hs : Asking s.1) (now : UInt32) :
    At e len .sendData rest (ctrlStep s (.reply ctrlCmdFlashEraseOk now)).1 ∧
      (ctrlStep s (.reply ctrlCmdFlashEraseOk now)).2 = [] := by
  have hstep : ctrlHandle s.1 s.2 (.reply ctrlCmdFlashEraseOk now) =
      ({ s.1 with state := .sendData }, []) :=
    if_pos hs
  have hi : ¬ IsReply ctrlCmdCrcSuccess (.reply ctrlCmdFlashEraseOk now) := fun hi =>
    absurd ((isReply_reply _ _ _).mp hi) (by decide)
  exact ⟨h.step hi (congrArg (fun r => r.1.state) hstep)
    ((congrArg (fun r => slice e r.1.sentLength.toNat (len - r.1.sentLength.toNat)) hstep).trans
      h.rest),
    congrArg Prod.snd hstep⟩

theorem checking_run (hs : s.1.state = .waitComplete) {is : List CtrlEvent}
    (his : ∀ i ∈ is, Open i) : final ctrlStep s is = s ∧ outs ctrlStep s is = [] := by
  induction is with
  | nil => exact ⟨rfl, rfl⟩
  | cons i is ih =>
    obtain ⟨hi, his⟩ := List.forall_mem_cons.mp his
    obtain ⟨hg, hfx⟩ := checking_of_move (ctrlHandle_move s.1 s.2 i) hs hi
    have hsame : ctrlStep s i = (s, []) := by
      unfold ctrlStep
      rw [hg, hfx]
      rfl
    rw [final_cons, outs_cons, hsame]
    exact ih his

theorem success_step (s : CtrlOtaCtx × Eeprom) (now : UInt32) :
    (ctrlStep s (.reply ctrlCmdCrcSuccess now)).1.1.state = .complete ∧
      (ctrlStep s (.reply ctrlCmdCrcSuccess now)).1.2 = store s.2 flagAddr [ctrlOtaFlagIdle] ∧
      dataFrames (ctrlStep s (.reply ctrlCmdCrcSuccess now)).2 = [] ∧
      notifications (ctrlStep s (.reply ctrlCmdCrcSuccess now)).2 = [resultOk] :=
  ⟨rfl,
    (applyEffects_move (ctrlHandle_move s.1 s.2 (.reply ctrlCmdCrcSuccess now))).trans (if_pos rfl),
    dataFrames_writeFlag ctrlOtaFlagIdle,
    congrArg (resultOk :: ·) (notifications_writeFlag ctrlOtaFlagIdle)⟩

/-! ### The upload -/

/-- The upload of the image in `e` is complete, after the exchanges `xs`. -/
structure Completes (e : Eeprom) (image : List UInt8) (xs : List Exchange) (s : CtrlOtaCtx × Eeprom)
    (fx : List Effect) : Prop where
  state : s.1.state = .complete
  eeprom : s.2 = store e flagAddr [ctrlOtaFlagIdle]
  frames : dataFrames fx = sentFrom image xs
  payloads : (∀ x ∈ xs, x.lost = []) → ((dataFrames fx).map payload).flatten = image
  notes : notifications fx = reportsFrom image.length image xs ++ [resultOk]

/-- **The upload goes through**, if the controller plays along. -/
theorem upload_completes {size crc : UInt32} {image : List UInt8} (h : Downloaded size crc image e)
    (hne : image ≠ []) (hfits : size.toNat ≤ flagAddr) {d : Conversation}
    (hd : d.Ok ((image.length + 199) / 200)) :
    Completes e image d.exchanges (final ctrlStep (ctrlOtaInit e, e) d.events)
      (outs ctrlStep (ctrlOtaInit e, e) d.events) := by
  have hlen : size.toNat = image.length := by rw [← h.image, length_slice]
  have hboot := ctrlOtaInit_ready h.flag
  have hat : At e image.length (ctrlOtaInit e).state image (ctrlOtaInit e, e) := by
    refine ⟨ctrlInv_init e, rfl, rfl, ?_, hlen ▸ hfits, ?_⟩
    · rw [hboot, ← hlen, ← h.length]
    · rw [hboot, ← hlen]
      exact h.image
  have hstart : Asking (ctrlOtaInit e) := by
    rw [hboot]
    exact .inl rfl
  obtain ⟨hasked, hasks, hframes, hnotes⟩ :=
    At.asking (s := (ctrlOtaInit e, e)) hat hstart hd.asking
  obtain ⟨herased, hquiet⟩ := hasked.erased hasks d.erased
  obtain ⟨hsent, hframes', hnotes'⟩ := herased.image hne hd.exchanges hd.chunks
  obtain ⟨hcheck, hsilent⟩ := checking_run hsent.state hd.checking
  obtain ⟨hstate, hclear, hno, hok⟩ := success_step (final ctrlStep (ctrlStep (final ctrlStep
    (ctrlOtaInit e, e) d.asking) (.reply ctrlCmdFlashEraseOk d.erased)).1
    (d.exchanges.flatMap Exchange.events)) d.done
  have hsentAll : dataFrames (outs ctrlStep (ctrlOtaInit e, e) d.events) =
      sentFrom image d.exchanges := by
    simp only [Conversation.events, final_append, outs_append, final_cons, outs_cons, outs_nil,
      hcheck, hquiet, hsilent, dataFrames_append, hframes, hframes', hno, List.nil_append,
      List.append_nil]
  have hnotesAll : notifications (outs ctrlStep (ctrlOtaInit e, e) d.events) =
      reportsFrom image.length image d.exchanges ++ [resultOk] := by
    simp only [Conversation.events, final_append, outs_append, final_cons, outs_cons, outs_nil,
      hcheck, hquiet, hsilent, notifications_append, hnotes, hnotes', hok, List.nil_append,
      List.append_nil]
  have hfinal : final ctrlStep (ctrlOtaInit e, e) d.events =
      (ctrlStep (final ctrlStep (ctrlStep (final ctrlStep (ctrlOtaInit e, e) d.asking)
        (.reply ctrlCmdFlashEraseOk d.erased)).1 (d.exchanges.flatMap Exchange.events))
        (.reply ctrlCmdCrcSuccess d.done)).1 := by
    simp only [Conversation.events, final_append, final_cons, final_nil, hcheck]
  rw [hsent.eeprom] at hclear
  refine ⟨?_, ?_, hsentAll, fun hnone => ?_, hnotesAll⟩
  · rw [hfinal]
    exact hstate
  · rw [hfinal]
    exact hclear
  · rw [hsentAll]
    exact payloads_sentFrom hd.chunks hnone

end BleHidUart.CtrlOta.Dialogue
