import BleHidUart.Ota.Start

/-!
# Package retry

A package retry starts the session over and leaves the file as it was announced. It is taken in
every state, and `OtaReset` has wiped the length and the CRC of the file when a session is over.
`restarts_iff` says when a retry does restart the session of the last accepted start request:
exactly when the context still has the length of its file.
-/

namespace BleHidUart.Ota.Retry

open BleHidUart.Board BleHidUart.Lib.Run BleHidUart.Lib.Word BleHidUart.Ota.Handlers
open BleHidUart.Ota.Moves BleHidUart.Ota.Start

/-! ### The last accepted start request -/

/-- The context and the EEPROM right after the last accepted start request. -/
def recordStart (h : Option (OtaContext × Eeprom)) (s : OtaContext × Eeprom) :
    AppFrame → List Effect → OtaContext × Eeprom → Option (OtaContext × Eeprom)
  | .start f, _, s' => if Opens s.1 f then some s' else h
  | .data _, _, _ | .packageRetry _, _, _ | .eraseRetry _, _, _ => h

/-- The app side with that history. -/
abbrev startStep : (OtaContext × Eeprom) × Option (OtaContext × Eeprom) → AppFrame →
    ((OtaContext × Eeprom) × Option (OtaContext × Eeprom)) × List Effect :=
  withHistory otaStep recordStart

/-- The retry goes back to right after the last accepted start request: to its context, with a file
and everything else reset, so that whatever comes next has the same effects. -/
def Restarts (s : (OtaContext × Eeprom) × Option (OtaContext × Eeprom)) (f : PackageRetryFrame) :
    Prop :=
  ∃ o, s.2 = some o ∧ o.1 = opened otaInit o.1.fileLength o.1.fileCrc ∧ o.1.fileLength ≠ 0 ∧
    (otaStep s.1 (.packageRetry f)).1.1 = o.1 ∧
    ∀ fs, outs otaStep (otaStep s.1 (.packageRetry f)).1 fs = outs otaStep o fs ∧
      (final otaStep (otaStep s.1 (.packageRetry f)).1 fs).1 = (final otaStep o fs).1

/-- An open file is the one of the last accepted start request. -/
def FileOfStart (s : (OtaContext × Eeprom) × Option (OtaContext × Eeprom)) : Prop :=
  s.1.1.fileLength ≠ 0 →
    ∃ o, s.2 = some o ∧ o.1 = opened otaInit s.1.1.fileLength s.1.1.fileCrc

theorem fileOfStart_step (s : (OtaContext × Eeprom) × Option (OtaContext × Eeprom)) (f : AppFrame)
    (h : FileOfStart s) : FileOfStart (startStep s f).1 := by
  have hm := otaHandle_move s.1.1 f
  unfold FileOfStart at h ⊢
  simp only [withHistory_fst, withHistory_snd, otaStep]
  generalize (otaHandle s.1.1 f).1 = c' at hm ⊢
  generalize (otaHandle s.1.1 f).2 = fx at hm ⊢
  cases hm with
  | startIgnored f hs =>
    have hkeep : recordStart s.2 s.1 (.start f) [] (s.1.1, applyEffects s.1.2 []) = s.2 :=
      if_neg fun ho => hs ho.state
    rw [hkeep]
    exact h
  | startAccepted f ho =>
    intro _
    exact ⟨_, if_pos ho, rfl⟩
  | startRefused | dataAborted | dataCommitted | dataMismatched => exact fun hne => absurd rfl hne
  | dataIgnored | dataResend | dataContinued | packageRetried | packageRetryRefused | eraseRetried
  | eraseRetryRefused => exact h

theorem fileOfStart_run (e : Eeprom) (fs : List AppFrame) :
    FileOfStart (final startStep ((otaInit, e), none) fs) :=
  final_invariant fileOfStart_step (fun hne => absurd rfl hne) fs

/-! ### When a retry restarts the session -/

theorem retried_iff (c : OtaContext) (f : PackageRetryFrame) :
    otaSendPackageRetryAck otaResultSuccess ∈ (otaHandle c (.packageRetry f)).2 ↔
      byteAt f.bytes 4 = 0x0E := by
  have hne : otaSendPackageRetryAck otaResultSuccess ≠ otaSendPackageRetryAck otaResultFail := by
    decide
  simp only [otaHandle, otaPackageRetry]
  split_ifs with hb
  · exact iff_of_true (by simp) hb
  · exact iff_of_false (by simp [hne]) hb

theorem otaHandle_packageRetry {c : OtaContext} {f : PackageRetryFrame}
    (hb : byteAt f.bytes 4 = 0x0E) : (otaHandle c (.packageRetry f)).1 = otaRestart c := by
  simp only [otaHandle, otaPackageRetry, if_pos hb]
  rfl

theorem run_congr {s t : OtaContext × Eeprom} (h : s.1 = t.1) (fs : List AppFrame) :
    outs otaStep s fs = outs otaStep t fs ∧ (final otaStep s fs).1 = (final otaStep t fs).1 := by
  rw [outs_otaStep, outs_otaStep, final_otaStep, final_otaStep, h]
  exact ⟨rfl, rfl⟩

/-- **A retry that is answered with success restarts the session of the last accepted start request
exactly when the length of its file has not been wiped**, in every reachable state. -/
theorem restarts_iff (e : Eeprom) (fs : List AppFrame) (f : PackageRetryFrame)
    (hok : otaSendPackageRetryAck otaResultSuccess ∈
      (otaStep (final otaStep (otaInit, e) fs) (.packageRetry f)).2) :
    Restarts (final startStep ((otaInit, e), none) fs) f ↔
      (final otaStep (otaInit, e) fs).1.fileLength ≠ 0 := by
  have hstart := fileOfStart_run e fs
  have hctx : (final startStep ((otaInit, e), none) fs).1 = final otaStep (otaInit, e) fs :=
    final_withHistory _ fs
  generalize final startStep ((otaInit, e), none) fs = s at hstart hctx ⊢
  rw [← hctx] at hok ⊢
  have hb : byteAt f.bytes 4 = 0x0E := (retried_iff s.1.1 f).mp hok
  have hnext : (otaStep s.1 (.packageRetry f)).1.1 =
      opened otaInit s.1.1.fileLength s.1.1.fileCrc := otaHandle_packageRetry hb
  constructor
  · rintro ⟨o, -, -, hne, ho, -⟩
    rw [← ho, hnext] at hne
    exact hne
  · intro hne
    obtain ⟨o, hrec, ho⟩ := hstart hne
    have hsame : (otaStep s.1 (.packageRetry f)).1.1 = o.1 := hnext.trans ho.symm
    have hlen : o.1.fileLength = s.1.1.fileLength := by
      rw [ho]
      rfl
    refine ⟨o, hrec, ?_, ?_, hsame, fun fs => run_congr hsame fs⟩
    · rw [ho]
      rfl
    · rw [hlen]
      exact hne

/-- A retry the handler takes. -/
def retryRequest : PackageRetryFrame := ⟨[0x53, 0x35, 0x0B, 0x05, 0x0E], rfl, le_rfl, le_rfl⟩

/-- A retry in the middle of a session. -/
theorem restarts_open : Restarts
    (final startStep ((otaInit, fun _ => 0), none) [.start (startOf 8)])
    retryRequest :=
  (restarts_iff (fun _ => 0) [.start (startOf 8)] retryRequest (by decide)).mpr (by decide)

/-- A start request for four bytes with the CRC `0`, which is not that of `onlyPacket`. -/
def startWrongCrc : StartFrame :=
  ⟨[0x53, 0x35, 0x06, 0x0C, 4, 0, 0, 0, 0, 0, 0, 0], rfl, le_rfl, le_rfl⟩

/-- **A retry after a failed download restarts nothing**: the file CRC does not match, the session
is reset, and the retry is answered with success for a file of no bytes. -/
theorem not_restarts_failed : ¬ ∀ (e : Eeprom) (fs : List AppFrame) (f : PackageRetryFrame),
    otaSendPackageRetryAck otaResultSuccess ∈
      (otaStep (final otaStep (otaInit, e) fs) (.packageRetry f)).2 →
    Restarts (final startStep ((otaInit, e), none) fs) f := by
  intro hall
  obtain ⟨o, -, -, hne, ho, -⟩ :=
    hall (fun _ => 0) [.start startWrongCrc, .data onlyPacket] retryRequest (by decide)
  rw [← ho] at hne
  exact hne rfl

end BleHidUart.Ota.Retry
