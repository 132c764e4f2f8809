import BleHidUart.Firmware.Channel

/-!
# The handshake opens the channel

`handshake_gates`, for the runs from power-on: no other command before the handshake has been
answered, at most 50 handshakes before, and none after. The invariant `ChannelInv` reads the flags
of the firmware as statements about the run.
-/

namespace BleHidUart.Firmware.Handshake

open BleHidUart.Board BleHidUart.Firmware.Channel BleHidUart.Firmware.Machine BleHidUart.Lib.Run
open BleHidUart.V2.Bridge BleHidUart.V2.Moves

/-- What the flags say of the run: `opened` if the handshake was answered, and `cmds` is what was
sent. -/
structure ChannelInv (opened : Prop) (cmds : List BleCmd) (s : BleState) : Prop where
  ok : s.controler.handshakeOk = true ↔ opened
  last : s.controler.lastCmdType = cmds.getLast?
  closed : s.controler.handshakeOk = false →
    cmds = List.replicate s.handshakeRetryCount .handshakeRsp ∧
      s.handshakeRetryCount ≤ handshakeMaxRetry

theorem ChannelInv.move {opened answered : Prop} {cmds new : List BleCmd} {s s' : BleState}
    (h : ChannelInv opened cmds s) (hm : ChannelMove s answered s' new) :
    ChannelInv (opened ∨ answered) (cmds ++ new) s' := by
  cases hm with
  | relays hno hr =>
    refine ⟨?_, ?_, fun hclosed => ?_⟩
    · rw [hr.ok, or_iff_left hno]
      exact h.ok
    · rw [hr.last, h.last, List.getLast?_append]
    · rw [hr.ok] at hclosed
      have hnone : new = [] := List.eq_nil_iff_forall_not_mem.mpr fun c hc => by
        rw [(hr.gated c hc).1] at hclosed
        cases hclosed
      rw [hnone, List.append_nil, hr.retries]
      exact h.closed hclosed
  | handshake hno hclosed hlt hc hretries =>
    obtain ⟨hcmds, -⟩ := h.closed hclosed
    refine ⟨?_, ?_, fun _ => ?_⟩
    · rw [hc, or_iff_left hno]
      exact h.ok
    · rw [hc, List.getLast?_append]
      rfl
    · rw [hretries, List.replicate_succ', ← hcmds]
      exact ⟨rfl, hlt⟩
  | opened hans hok hlast =>
    refine ⟨iff_of_true hok (.inr hans), ?_, fun hclosed => ?_⟩
    · rw [hlast, h.last, List.append_nil]
    · rw [hok] at hclosed
      cases hclosed

section Run
variable (addr : List UInt8) (e : Eeprom)

/-- The firmware after a run from power-on. -/
def after (xs : List FirmwareEvent) : FirmwareState := final (firmwareStep addr) (powerOn e) xs

/-- The commands that were sent to the controller in it. -/
def sentIn (xs : List FirmwareEvent) : List BleCmd :=
  sentCmds (outs (firmwareStep addr) (powerOn e) xs)

/-- After the run `xs`, the event `x` delivers the reply `5A A5` while the handshake is the last
command that was sent. -/
def OpensAt (xs : List FirmwareEvent) (x : FirmwareEvent) : Prop :=
  DeliversOk (after addr e xs) x ∧ (sentIn addr e xs).getLast? = some .handshakeRsp

/-- A step of the run was one with the answer to the handshake. -/
def Opened (xs : List FirmwareEvent) : Prop := ∃ ys x zs, xs = ys ++ x :: zs ∧ OpensAt addr e ys x

variable {addr e}

theorem opened_concat (xs : List FirmwareEvent) (x : FirmwareEvent) :
    Opened addr e (xs ++ [x]) ↔ Opened addr e xs ∨ OpensAt addr e xs x := by
  constructor
  · rintro ⟨ys, y, zs, heq, hopen⟩
    rcases List.eq_nil_or_concat zs with rfl | ⟨zs, z, rfl⟩
    · obtain ⟨rfl, hx⟩ := List.append_inj' heq rfl
      obtain rfl := List.singleton_injective hx
      exact .inr hopen
    · have hassoc : xs ++ [x] = (ys ++ y :: zs) ++ [z] := by
        rw [heq, List.concat_eq_append, List.append_assoc, List.cons_append]
      exact .inl ⟨ys, y, zs, (List.append_inj' hassoc rfl).1, hopen⟩
  · rintro (⟨ys, y, zs, rfl, hopen⟩ | hopen)
    · exact ⟨ys, y, zs ++ [x], by rw [List.append_assoc, List.cons_append], hopen⟩
    · exact ⟨xs, x, [], rfl, hopen⟩

theorem channelInv_run (xs : List FirmwareEvent) :
    ChannelInv (Opened addr e xs) (sentIn addr e xs) (after addr e xs).bridge.ble := by
  induction xs using List.reverseRecOn with
  | nil =>
    have hno : ¬ Opened addr e [] := by
      rintro ⟨ys, x, zs, heq, -⟩
      exact absurd heq.symm (List.append_ne_nil_of_right_ne_nil ys (List.cons_ne_nil x zs))
    exact ⟨iff_of_false Bool.false_ne_true hno, rfl, fun _ => ⟨rfl, Nat.zero_le _⟩⟩
  | append_singleton xs x ih =>
    have hafter : after addr e (xs ++ [x]) = (firmwareStep addr (after addr e xs) x).1 :=
      final_append _ _ xs [x]
    have hsent : sentIn addr e (xs ++ [x]) =
        sentIn addr e xs ++ sentCmds (firmwareStep addr (after addr e xs) x).2 := by
      unfold sentIn
      rw [outs_append, outs_cons, outs_nil, List.append_nil, sentCmds_append]
      rfl
    have hans : Answers (after addr e xs) x ↔ OpensAt addr e xs x := by
      unfold Answers OpensAt
      rw [ih.last]
    rw [hafter, hsent, propext (opened_concat xs x)]
    exact ih.move ((firmwareStep_channel addr (after addr e xs) x).congr hans)

theorem no_handshake {f : FirmwareState} (h : f.bridge.ble.controler.handshakeOk = true)
    (ys : List FirmwareEvent) : .handshakeRsp ∉ sentCmds (outs (firmwareStep addr) f ys) := by
  induction ys generalizing f with
  | nil => exact List.not_mem_nil
  | cons y ys ih =>
    rw [outs_cons, sentCmds_append, List.mem_append]
    have hmove := firmwareStep_channel addr f y
    generalize hnew : sentCmds (firmwareStep addr f y).2 = new at hmove ⊢
    cases hmove with
    | relays _ hr =>
      have hok := hr.ok.trans h
      exact not_or.mpr ⟨fun hc => (hr.gated _ hc).2 rfl, ih hok⟩
    | handshake _ hclosed => cases h.symm.trans hclosed
    | opened _ hok => exact not_or.mpr ⟨List.not_mem_nil, ih hok⟩

variable (addr e)

/-- **The gate**, over all runs from power-on. -/
structure Gates : Prop where
  /-- A step sends another command than the handshake only after the answer to the handshake. -/
  gated : ∀ xs x, ∀ c ∈ sentCmds (firmwareStep addr (after addr e xs) x).2, c ≠ .handshakeRsp →
    Opened addr e xs
  /-- Before the answer at most 50 handshakes are sent, and nothing else. -/
  before : ∀ xs, ¬ Opened addr e xs → (∀ c ∈ sentIn addr e xs, c = .handshakeRsp) ∧
    (sentIn addr e xs).length ≤ 50
  /-- After it no handshake is sent. -/
  after : ∀ xs, Opened addr e xs → ∀ ys,
    .handshakeRsp ∉ sentCmds (outs (firmwareStep addr) (after addr e xs) ys)

/-- **The handshake gates the channel.** -/
theorem handshake_gates : Gates addr e where
  gated := by
    intro xs x c hc hne
    have hinv : ChannelInv (Opened addr e xs) (sentIn addr e xs) (after addr e xs).bridge.ble :=
      channelInv_run xs
    have hmove := firmwareStep_channel addr (after addr e xs) x
    generalize hnew : sentCmds (firmwareStep addr (after addr e xs) x).2 = new at hc hmove
    cases hmove with
    | relays _ hr => exact hinv.ok.mp (hr.gated c hc).1
    | handshake => exact absurd (List.mem_singleton.mp hc) hne
    | opened => cases hc
  before := by
    intro xs hno
    have hinv : ChannelInv (Opened addr e xs) (sentIn addr e xs) (after addr e xs).bridge.ble :=
      channelInv_run xs
    have hclosed : (after addr e xs).bridge.ble.controler.handshakeOk = false :=
      Bool.not_eq_true _ ▸ fun hok => hno (hinv.ok.mp hok)
    obtain ⟨hcmds, hle⟩ := hinv.closed hclosed
    rw [hcmds, List.length_replicate]
    exact ⟨fun c hc => List.eq_of_mem_replicate hc, hle⟩
  after := fun xs hopen ys => no_handshake ((channelInv_run xs).ok.mpr hopen) ys

end Run

/-- An unlock command before and after the answer to the handshake. -/
example : sentIn [] (fun _ => 0) [.appData [0x55, 0x03, 0xAA] fun _ => 0, .handshakeTick 1000,
    .uart (.timeout [0x5A, 0xA5]) fun _ => 1100, .appData [0x55, 0x03, 0xAA] fun _ => 1200] =
    [.handshakeRsp, .unlockRsp] := by decide +kernel

end BleHidUart.Firmware.Handshake
