import BleHidUart.Firmware.Joint

/-!
# One upload, one image

An upload that is under way reads the image area, and a download writes it; the start of a download
clears the ready flag, but the upload does not look at the flag again. `stores` lists the ranges
that packets have stored since the boot. `Undisturbed` is the condition on the steps of a run under
which every data frame carries a slice of the image of the boot (`snapshot_run`): a packet is stored
below the file length only where the upload has passed or is over, and no CRC failure starts it
again after that.
-/

namespace BleHidUart.Firmware.Snapshot

open BleHidUart.Board BleHidUart.CtrlOta.Metadata BleHidUart.CtrlOta.Machine
open BleHidUart.CtrlOta.Moves BleHidUart.CtrlOta.Transfer BleHidUart.Lib.Memory BleHidUart.Lib.Run
open BleHidUart.Lib.Word BleHidUart.Ota.Handlers BleHidUart.Ota.Moves BleHidUart.Ota.Session
open BleHidUart.Firmware.Joint

/-! ### Stored ranges -/

/-- The ranges of the image area that packets have stored since the boot: address and length. -/
abbrev Stores := List (ℕ × ℕ)

/-- The stored ranges after a stimulus. -/
def addStore (h : Stores) (d : Device) : Stimulus → Stores
  | .app (.data f) =>
    if Accepts d.ota f ∧ stored d.ota f ≠ [] then
      (d.ota.receivedLength.toNat, (stored d.ota f).length) :: h
    else h
  | .app _ | .ctrl _ => h

/-- The device with the stored ranges. -/
abbrev storeStep : Device × Stores → Stimulus → (Device × Stores) × List Effect :=
  withHistory deviceStep fun h d x _ _ => addStore h d x

/-! ### The property and the condition -/

/-- The frames of an event carry one image: each request announces its length and its CRC, each data
frame has the payload that continues it at the sent length, and none of its bytes was stored after
the boot. -/
def ShipsSnapshot (e : Eeprom) (s : Device × Stores) (x : Stimulus) : Prop :=
  ∀ frame, Effect.uart frame ∈ (deviceStep s.1 x).2 →
    (byteAt frame 7 = ctrlCmdWriteReq →
      le32At frame 8 = storedLength e ∧ le32At frame 12 = storedCrc e) ∧
    (byteAt frame 7 = ctrlCmdData →
      payload frame = slice e s.1.ctrl.sentLength.toNat (payload frame).length ∧
      s.1.ctrl.sentLength.toNat + (payload frame).length ≤ (storedLength e).toNat ∧
      ∀ r ∈ s.2, r.1 + r.2 ≤ s.1.ctrl.sentLength.toNat ∨
        s.1.ctrl.sentLength.toNat + (payload frame).length ≤ r.1)

/-- The upload is over, or it has passed the first `n` bytes of the file. -/
def Passed (g : CtrlOtaCtx) (n : ℕ) : Prop :=
  g.state = .idle ∨ g.state = .waitComplete ∨ g.state = .complete ∨ g.state = .filed ∨
    ((g.state = .sendData ∨ g.state = .waitDataAck) ∧ n ≤ g.sentLength.toNat)

instance (g : CtrlOtaCtx) (n : ℕ) : Decidable (Passed g n) := by
  unfold Passed; infer_instance

/-- The packet stores bytes of the file that is uploaded. -/
def Overwrites (d : Device) (f : DataFrame) : Prop :=
  Accepts d.ota f ∧ stored d.ota f ≠ [] ∧
    d.ota.receivedLength.toNat < d.ctrl.fileLength.toNat

instance (d : Device) (f : DataFrame) : Decidable (Overwrites d f) :=
  inferInstanceAs (Decidable (_ ∧ _ ≠ _ ∧ _ < _))

/-- **The condition** on a step: a packet only overwrites bytes of the uploaded file that the upload
has passed, and no CRC failure restarts the upload of a file that was overwritten. -/
def Undisturbed (s : Device × Stores) : Stimulus → Prop
  | .app (.data f) => Overwrites s.1 f →
    Passed s.1.ctrl (s.1.ota.receivedLength.toNat + (stored s.1.ota f).length)
  | .app _ => True
  | .ctrl i => IsReply ctrlCmdCrcFail i → ∀ r ∈ s.2, s.1.ctrl.fileLength.toNat ≤ r.1

instance (s : Device × Stores) : (x : Stimulus) → Decidable (Undisturbed s x)
  | .app (.data f) => inferInstanceAs (Decidable (Overwrites s.1 f → Passed _ _))
  | .app (.start _) | .app (.packageRetry _) | .app (.eraseRetry _) => .isTrue trivial
  | .ctrl i => inferInstanceAs (Decidable (IsReply _ i → ∀ r ∈ s.2, _ ≤ r.1))

/-! ### The invariant -/

/-- **The invariant** of a run from a boot with the EEPROM `e`. -/
structure SnapInv (e : Eeprom) (s : Device × Stores) : Prop where
  device : DeviceInv s.1
  length : s.1.ctrl.fileLength = storedLength e
  fileCrc : s.1.ctrl.fileCrc = storedCrc e
  bound : (storedLength e).toNat ≤ flagAddr
  kept : ∀ a, a < flagAddr → (∀ r ∈ s.2, a < r.1 ∨ r.1 + r.2 ≤ a) → s.1.ee a = e a
  passed : ∀ r ∈ s.2, r.1 < s.1.ctrl.fileLength.toNat → Passed s.1.ctrl (r.1 + r.2)

theorem snapInv_boot {e : Eeprom} (hf : flagByte e = ctrlOtaFlagReady)
    (hle : (storedLength e).toNat ≤ flagAddr) : SnapInv e (boot e, []) := by
  have hboot : (boot e).ctrl = _ := ctrlOtaInit_ready hf
  refine ⟨deviceInv_boot e, ?_, ?_, hle, fun _ _ _ => rfl, by simp⟩
  · rw [hboot]
  · rw [hboot]

variable {e ee : Eeprom} {g g' : CtrlOtaCtx} {i : CtrlEvent} {fx : List Effect} {n : ℕ}

theorem Passed.move (hp : Passed g n) (h : CtrlInv g) (hm : CtrlMove g ee i g' fx)
    (hn : ¬ IsReply ctrlCmdCrcFail i) : Passed g' n := by
  have hadv := toNat_advance h
  have hold : g.state = .sendData ∨ g.state = .waitDataAck → n ≤ g.sentLength.toNat := by
    intro hs
    rcases hp with h1 | h1 | h1 | h1 | ⟨-, hle⟩
    · rw [h1] at hs; simp at hs
    · rw [h1] at hs; simp at hs
    · rw [h1] at hs; simp at hs
    · rw [h1] at hs; simp at hs
    · exact hle
  have hout : ∀ {t : CtrlOtaState},
      g.state = t → t = .sendRequest ∨ t = .waitConfirm ∨ t = .error → False := by
    rintro t rfl ht
    rcases hp with h1 | h1 | h1 | h1 | ⟨h1 | h1, -⟩ <;> rw [h1] at ht <;> simp at ht
  cases hm with
  | stay | failed => exact hp
  | request now hs => exact (hout hs (.inl rfl)).elim
  | finish now hs hl => exact .inr (.inl rfl)
  | send now hs hne => exact .inr (.inr (.inr (.inr ⟨.inr rfl, hold (.inl hs)⟩)))
  | timeout now hs ht => exact .inr (.inr (.inr (.inr ⟨.inl rfl, hold (.inr hs)⟩)))
  | restart now hs => exact (hout hs (.inr (.inr rfl))).elim
  | confirm now hs => exact (hout hs (.inl rfl)).elim
  | erased now hs =>
    rcases hs with hs | hs
    · exact (hout hs (.inl rfl)).elim
    · exact (hout hs (.inr (.inl rfl))).elim
  | ackLast now hs hl => exact .inr (.inl rfl)
  | ackMore now hs hl =>
    have hle := hold (.inr hs)
    refine .inr (.inr (.inr (.inr ⟨.inl rfl, ?_⟩)))
    have hgoal : n ≤ (ctrlOtaAdvanceData g).sentLength.toNat := by omega
    exact hgoal
  | success now => exact .inr (.inr (.inl rfl))
  | crcFail now => exact absurd rfl hn
  | refused cmd now hc => exact .inr (.inr (.inr (.inl rfl)))

/-! ### One step -/

section Add
variable {d : Device} {h : Stores}

theorem addStore_packet {f : DataFrame} (hs : Accepts d.ota f ∧ stored d.ota f ≠ []) :
    addStore h d (.app (.data f)) =
      (d.ota.receivedLength.toNat, (stored d.ota f).length) :: h := if_pos hs

theorem addStore_nothing {f : DataFrame} (hs : ¬ (Accepts d.ota f ∧ stored d.ota f ≠ [])) :
    addStore h d (.app (.data f)) = h := if_neg hs

theorem subset_addStore (x : Stimulus) : h ⊆ addStore h d x := by
  intro r hr
  rcases x with f | i
  · cases f with
    | data f =>
      by_cases hs : Accepts d.ota f ∧ stored d.ota f ≠ []
      · rw [addStore_packet hs]
        exact List.mem_cons_of_mem _ hr
      · rw [addStore_nothing hs]
        exact hr
    | start | packageRetry | eraseRetry => exact hr
  · exact hr

/-- A cell outside the recorded ranges is not touched by the packet that is recorded. -/
theorem store_of_recorded {f : DataFrame} (ha : Accepts d.ota f) {a : ℕ}
    (hout : ∀ r ∈ addStore h d (.app (.data f)), a < r.1 ∨ r.1 + r.2 ≤ a) :
    store d.ee d.ota.receivedLength.toNat (stored d.ota f) a = d.ee a := by
  by_cases hnil : stored d.ota f = []
  · rw [hnil, store_nil]
  · rw [addStore_packet ⟨ha, hnil⟩] at hout
    rcases hout _ List.mem_cons_self with hlt | hge
    · exact store_of_lt _ hlt
    · exact store_of_ge hge

end Add

theorem kept_app {s : Device × Stores} (h : SnapInv e s) (f : AppFrame) {a : ℕ} (ha : a < flagAddr)
    (hout : ∀ r ∈ addStore s.2 s.1 (.app f), a < r.1 ∨ r.1 + r.2 ≤ a) :
    (handle s.1 (.app f)).ee a = e a := by
  have hw := otaStep_wrote (s := (s.1.ota, s.1.ee)) f h.device.ota
  have hold : s.1.ee a = e a := h.kept a ha fun r hr => hout r (subset_addStore _ hr)
  have hee : (handle s.1 (.app f)).ee = (otaStep (s.1.ota, s.1.ee) f).1.2 := rfl
  rw [hee]
  generalize (otaStep (s.1.ota, s.1.ee) f).1.1 = c' at hw
  generalize (otaStep (s.1.ota, s.1.ee) f).1.2 = e' at hw ⊢
  dsimp only at hw
  cases hw with
  | nothing => exact hold
  | cleared =>
    rw [store_of_lt _ ha]
    exact hold
  | packet f c' hacc =>
    rw [store_of_recorded hacc hout]
    exact hold
  | committed f hc =>
    rw [store_of_lt _ ha, store_of_recorded hc.accepts hout]
    exact hold

theorem passed_app {s : Device × Stores} (h : SnapInv e s) (f : AppFrame)
    (hu : Undisturbed s (.app f)) : ∀ r ∈ addStore s.2 s.1 (.app f),
      r.1 < s.1.ctrl.fileLength.toNat → Passed s.1.ctrl (r.1 + r.2) := by
  intro r hr hlt
  cases f with
  | data f =>
    by_cases hs : Accepts s.1.ota f ∧ stored s.1.ota f ≠ []
    · rw [addStore_packet hs] at hr
      rcases List.mem_cons.mp hr with rfl | hr
      · exact hu ⟨hs.1, hs.2, hlt⟩
      · exact h.passed r hr hlt
    · rw [addStore_nothing hs] at hr
      exact h.passed r hr hlt
  | start | packageRetry | eraseRetry => exact h.passed r hr hlt

/-- **A step that meets the condition keeps the invariant.** -/
theorem snapInv_step (s : Device × Stores) (x : Stimulus) (h : SnapInv e s)
    (hu : Undisturbed s x) : SnapInv e (storeStep s x).1 := by
  have hdev := deviceInv_step s.1 x h.device
  cases x with
  | app f =>
    exact ⟨hdev, h.length, h.fileCrc, h.bound, fun a ha hout => kept_app h f ha hout,
      passed_app h f hu⟩
  | ctrl i =>
    have hm := ctrlHandle_move s.1.ctrl s.1.ee i
    obtain ⟨hl, hc⟩ := move_file hm
    refine ⟨hdev, hl.trans h.length, hc.trans h.fileCrc, h.bound, fun a ha hout => ?_,
      fun r hr hlt => ?_⟩
    · exact (applyEffects_move_of_lt hm ha).trans (h.kept a ha hout)
    · have hlt' : r.1 < s.1.ctrl.fileLength.toNat := by
        rw [← hl]
        exact hlt
      have hpass := h.passed r hr hlt'
      refine hpass.move h.device.ctrl hm fun hfail => ?_
      have hle := hu hfail r hr
      omega

theorem no_uart_app {c c' : OtaContext} {f : AppFrame} (hm : OtaMove c f c' fx)
    (frame : List UInt8) : Effect.uart frame ∉ fx := by
  cases hm <;>
    simp [writeFlag, ctrlOtaSetotaReadyflag, eepromWrite, otaSendStartResponse,
      otaSendFlashEraseDone, otaSendDataAck, otaSendPackageRetryAck, otaSendEraseRetryAck]

theorem ships_of_inv {s : Device × Stores} (h : SnapInv e s) (x : Stimulus) :
    ShipsSnapshot e s x := by
  intro frame hf
  cases x with
  | app f => exact absurd hf (no_uart_app (otaHandle_move s.1.ota f) frame)
  | ctrl i =>
    have hm := ctrlHandle_move s.1.ctrl s.1.ee i
    refine ⟨fun hcmd => ?_, fun hcmd => ?_⟩
    · have hreq := request_of_move hm hf hcmd
      have hle := le32At_requestFrame s.1.ctrl
      rwa [hreq, ← h.length, ← h.fileCrc]
    · obtain ⟨hs, -, hframe⟩ := data_of_move hm hf hcmd
      have hinv := h.device.ctrl
      have hchunk := toNat_ctrlOtaChunk hinv
      have hsent := hinv.sent_le
      have hlen : s.1.ctrl.fileLength.toNat ≤ flagAddr := by
        rw [h.length]
        exact h.bound
      have hout : ∀ r ∈ s.2, r.1 + r.2 ≤ s.1.ctrl.sentLength.toNat ∨
          s.1.ctrl.sentLength.toNat + (ctrlOtaChunk s.1.ctrl).toNat ≤ r.1 := by
        intro r hr
        by_cases hlt : r.1 < s.1.ctrl.fileLength.toNat
        · rcases h.passed r hr hlt with h1 | h1 | h1 | h1 | ⟨-, hle⟩
          · rw [h1] at hs; cases hs
          · rw [h1] at hs; cases hs
          · rw [h1] at hs; cases hs
          · rw [h1] at hs; cases hs
          · exact .inl hle
        · exact .inr (by omega)
      rw [hframe, payload_dataFrame, chunkBytes_eq hinv hlen, length_slice, ← h.length]
      refine ⟨slice_congr fun a h1 h2 => h.kept a (by omega) fun r hr => ?_, by omega, hout⟩
      rcases hout r hr with hle | hle
      · exact .inr (by omega)
      · exact .inl (by omega)

/-- **One upload ships one image**: in a run whose steps meet the condition, every request announces
the image of the boot and every data frame carries a slice of it. -/
theorem snapshot_run {e : Eeprom} (hf : flagByte e = ctrlOtaFlagReady)
    (hle : (storedLength e).toNat ≤ flagAddr) {xs : List Stimulus}
    (hu : EachStep storeStep Undisturbed (boot e, []) xs) :
    EachStep storeStep (ShipsSnapshot e) (boot e, []) xs :=
  eachStep_of_invariant snapInv_step (fun _ x h _ => ships_of_inv h x) (snapInv_boot hf hle) hu

/-- A first packet with the content `05 06 07 08`. -/
def otherPacket : DataFrame :=
  ⟨[0x53, 0x35, 0x08, 0x0C, 0, 0, 1, 5, 6, 7, 8, 0x0C], rfl, by decide⟩

/-- A download that begins during the upload and stores its packet after it. -/
theorem snapshot_after : EachStep storeStep (ShipsSnapshot sampleEeprom) (boot sampleEeprom, [])
    [.ctrl (.tick 40), .app (.start (startOf 8)), .ctrl (.reply 0x17 50), .ctrl (.tick 60),
      .ctrl (.reply 0x0B 70), .app (.data otherPacket), .ctrl (.reply 0x0C 80)] :=
  snapshot_run (by decide) (by decide) (by decide +kernel)

/-- **A new download can be mixed in**: the packet is stored between the erase-OK of the controller
and the first data frame, which then carries it instead of the announced image. -/
theorem not_snapshot_mixed : ¬ ∀ e, flagByte e = ctrlOtaFlagReady →
    (storedLength e).toNat ≤ flagAddr → ∀ xs,
    EachStep storeStep (ShipsSnapshot e) (boot e, []) xs := by
  intro hall
  have h := hall sampleEeprom (by decide) (by decide)
    [.ctrl (.tick 40), .ctrl (.reply 0x17 50), .app (.start (startOf 8)), .app (.data otherPacket),
      .ctrl (.tick 60)]
  have hframe := h.2.2.2.2.1
    [0xEB, 0x90, 0xEB, 0x90, 0xEB, 0x90, 0x0E, 0x2B, 0x00, 5, 6, 7, 8, 0x0C] (by decide +kernel)
  exact absurd (hframe.2 rfl).1 (by decide)

end BleHidUart.Firmware.Snapshot
