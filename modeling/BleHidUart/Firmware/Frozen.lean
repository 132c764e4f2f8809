import BleHidUart.Firmware.Joint

/-!
# The image area is frozen while the flag is ready

The EEPROM is looked at after every single page write, so that a power cut may come at any moment.
`PageWrite` lists the page writes the firmware ever does: to the image area while the flag is not
ready, the flag cleared alone, or the whole ready record as the last write of its handler. A run
from any EEPROM only does these (`frozen_run`), hence no page write changes the image area while the
flag is ready.
-/

namespace BleHidUart.Firmware.Frozen

open BleHidUart.Board BleHidUart.Eeprom BleHidUart.CtrlOta.Metadata BleHidUart.CtrlOta.Machine
open BleHidUart.CtrlOta.Moves BleHidUart.Lib.Memory BleHidUart.Lib.Run BleHidUart.Ota.Handlers
open BleHidUart.Ota.Moves BleHidUart.Ota.Session BleHidUart.Firmware.Joint

/-- **A page write** `w` to the EEPROM `e`, followed by the writes `ys` of the same handler, in a
session for a file of `len` bytes with the CRC `crc`. -/
inductive PageWrite (len crc : UInt32) (e : Eeprom) (w : I2cWrite) (ys : List I2cWrite) : Prop
  | data : flagByte e ≠ ctrlOtaFlagReady →
      (∀ a, flagAddr ≤ a → deviceWrite e w a = e a) → PageWrite len crc e w ys
  | clear : deviceWrite e w = store e flagAddr [0] → PageWrite len crc e w ys
  | commit : deviceWrite e w = store e flagAddr (readyRecord len crc) → ys = [] →
      PageWrite len crc e w ys

/-- Each of the page writes `ws` is one of these. -/
def PageWrites (len crc : UInt32) (e : Eeprom) (ws : List I2cWrite) : Prop :=
  ∀ xs w ys, ws = xs ++ w :: ys → PageWrite len crc (xs.foldl deviceWrite e) w ys

/-- Each of the page writes `ws` goes to the image area while the flag is not ready. -/
def DataWrites (e : Eeprom) (ws : List I2cWrite) : Prop :=
  ∀ xs w ys, ws = xs ++ w :: ys → flagByte (xs.foldl deviceWrite e) ≠ ctrlOtaFlagReady ∧
    ∀ a, flagAddr ≤ a → deviceWrite (xs.foldl deviceWrite e) w a = xs.foldl deviceWrite e a

variable {len crc : UInt32} {e : Eeprom} {w : I2cWrite} {ws ys : List I2cWrite}

/-- While the flag is ready a page write leaves the image area alone. -/
theorem PageWrite.image (h : PageWrite len crc e w ys) (hf : flagByte e = ctrlOtaFlagReady) {a : ℕ}
    (ha : a < flagAddr) : deviceWrite e w a = e a := by
  rcases h with ⟨hne, -⟩ | hw | ⟨hw, -⟩
  · exact absurd hf hne
  · rw [hw, store_of_lt _ ha]
  · rw [hw, store_of_lt _ ha]

/-- A page write that makes the flag ready is the last of its handler and has the whole record. -/
theorem PageWrite.ready (h : PageWrite len crc e w ys) (hf : flagByte e ≠ ctrlOtaFlagReady)
    (hr : flagByte (deviceWrite e w) = ctrlOtaFlagReady) :
    ys = [] ∧ deviceWrite e w = store e flagAddr (readyRecord len crc) := by
  rcases h with ⟨-, hkeep⟩ | hw | ⟨hw, hys⟩
  · exact absurd ((hkeep flagAddr le_rfl).symm.trans hr) hf
  · rw [hw, flagByte_store_flag] at hr
    exact absurd hr (by decide)
  · exact ⟨hys, hw⟩

/-! ### The page writes of a handler -/

theorem pageWrites_nil : PageWrites len crc e [] := by
  intro xs w ys h
  simp at h

theorem PageWrites.take (h : PageWrites len crc e ws) (k : ℕ) :
    PageWrites len crc e (ws.take k) := by
  intro xs w ys hs
  have hfull : ws = xs ++ w :: (ys ++ ws.drop k) := by
    rw [← List.cons_append, ← List.append_assoc, ← hs, List.take_append_drop]
  rcases h xs w (ys ++ ws.drop k) hfull with ⟨hf, hkeep⟩ | hw | ⟨hw, hnil⟩
  · exact .data hf hkeep
  · exact .clear hw
  · exact .commit hw (List.append_eq_nil_iff.mp hnil).1

theorem pageWrites_single (h : PageWrite len crc e w []) : PageWrites len crc e [w] := by
  intro xs w' ys hs
  cases xs with
  | nil =>
    obtain ⟨rfl, rfl⟩ := List.cons.inj hs
    exact h
  | cons x xs => simp at hs

theorem pageWrites_writeFlag : PageWrites len crc e (i2cWrites (writeFlag 0)) := by
  obtain ⟨w, hw⟩ := i2cWrites_writeFlag 0
  have happ := applyEffects_writeFlag e 0
  rw [applyEffects_eq_foldl, hw] at happ
  rw [hw]
  exact pageWrites_single (.clear happ)

theorem dataWrites_i2cEepromWrite {addr : UInt32} {buf : List UInt8}
    (hf : flagByte e = ctrlOtaFlagReady → buf = [])
    (hle : addr.toNat + buf.length ≤ flagAddr) : DataWrites e (i2cEepromWrite addr buf) := by
  have hpage := flagAddr_add_page
  have hprefix : ∀ k a, flagAddr ≤ a →
      ((i2cEepromWrite addr buf).take k).foldl deviceWrite e a = e a := by
    intro k a ha
    obtain ⟨n, hn, hst⟩ := foldl_take_i2cEepromWrite
      (by omega : addr.toNat + buf.length ≤ 0x20000) e k
    rw [hst]
    exact store_of_ge (by rw [List.length_take]; omega)
  intro xs w ys hs
  have hxs : (i2cEepromWrite addr buf).take xs.length = xs := by
    rw [hs, List.take_left]
  have hxw : (i2cEepromWrite addr buf).take (xs.length + 1) = xs ++ [w] := by
    rw [hs, ← List.singleton_append, ← List.append_assoc]
    exact List.take_left' (by simp)
  have hold := hprefix xs.length
  have hnew := hprefix (xs.length + 1)
  rw [hxs] at hold
  rw [hxw, List.foldl_append] at hnew
  refine ⟨fun hready => ?_, fun a ha => ?_⟩
  · unfold flagByte at hready
    rw [hold flagAddr le_rfl] at hready
    rw [hf hready] at hs
    simp [i2cEepromWrite, i2cEepromWriteLoop] at hs
  · rw [hold a ha]
    exact hnew a ha

theorem DataWrites.pageWrites (h : DataWrites e ws) : PageWrites len crc e ws := by
  intro xs w ys hs
  obtain ⟨hf, hkeep⟩ := h xs w ys hs
  exact .data hf hkeep

theorem DataWrites.commit (h : DataWrites e ws) (len crc : UInt32) :
    PageWrites len crc e (ws ++ i2cWrites (ctrlOtaSetotaReadyflag len crc)) := by
  obtain ⟨wr, hwr⟩ := i2cWrites_readyflag len crc
  have happ := applyEffects_readyflag (ws.foldl deviceWrite e) len crc
  rw [applyEffects_eq_foldl, hwr] at happ
  rw [hwr]
  intro xs w ys hs
  rcases List.eq_nil_or_concat ys with rfl | ⟨zs, z, rfl⟩
  · obtain ⟨rfl, hw⟩ := List.append_inj' hs rfl
    obtain rfl : wr = w := (List.cons.inj hw).1
    exact .commit happ rfl
  · rw [List.concat_eq_append, ← List.cons_append, ← List.append_assoc] at hs
    obtain ⟨hws, -⟩ := List.append_inj' hs rfl
    obtain ⟨hf, hkeep⟩ := h xs w zs hws
    exact .data hf hkeep

@[simp] theorem i2cWrites_startResponse (r : UInt8) (fx : List Effect) :
    i2cWrites (otaSendStartResponse r :: fx) = i2cWrites fx := rfl

@[simp] theorem i2cWrites_flashEraseDone (r : UInt8) (fx : List Effect) :
    i2cWrites (otaSendFlashEraseDone r :: fx) = i2cWrites fx := rfl

@[simp] theorem i2cWrites_dataAck (seq : UInt16) (r : UInt8) (fx : List Effect) :
    i2cWrites (otaSendDataAck seq r :: fx) = i2cWrites fx := rfl

theorem pageWrites_app {c c' : OtaContext} {f : AppFrame} {fx : List Effect} (h : OtaInv c e)
    (hm : OtaMove c f c' fx) : PageWrites c.fileLength c.fileCrc e (i2cWrites fx) := by
  have hdata : ∀ d, DataWrites e (i2cEepromWrite c.eepromAddr (stored c d)) := by
    intro d
    have hle := received_add_stored_le h d
    have hlen := h.length_le
    refine dataWrites_i2cEepromWrite (fun hf => stored_eq_nil_of_closed h d (h.fresh hf)) ?_
    rw [h.addr]
    omega
  cases hm with
  | startRefused f hs hno =>
    rw [i2cWrites_append]
    simpa using pageWrites_writeFlag
  | startAccepted f ho =>
    rw [i2cWrites_append]
    simpa using pageWrites_writeFlag
  | dataContinued f ha hmore =>
    rw [i2cWrites_append, i2cWrites_eepromWrite]
    simpa using (hdata f).pageWrites
  | dataMismatched f ha hlast hne =>
    rw [i2cWrites_append, i2cWrites_eepromWrite]
    simpa using (hdata f).pageWrites
  | dataCommitted f hc =>
    rw [i2cWrites_append, i2cWrites_eepromWrite, i2cWrites_dataAck]
    exact (hdata f).commit _ _
  | startIgnored | dataIgnored | dataResend | dataAborted | packageRetried | packageRetryRefused
  | eraseRetried | eraseRetryRefused => exact pageWrites_nil

theorem pageWrites_ctrl {g g' : CtrlOtaCtx} {i : CtrlEvent} {fx : List Effect}
    (hm : CtrlMove g e i g' fx) : PageWrites len crc e (i2cWrites fx) := by
  cases hm with
  | success now =>
    have hw : i2cWrites (ctrlOtaNotifyResult ctrlOtaResultOk :: writeFlag ctrlOtaFlagIdle) =
        i2cWrites (writeFlag 0) := rfl
    rw [hw]
    exact pageWrites_writeFlag
  | stay | failed | request | finish | send | timeout | restart | confirm | erased | ackLast
  | ackMore | crcFail | refused => exact pageWrites_nil

theorem pageWrites_effects {d : Device} (h : DeviceInv d) :
    ∀ x : Stimulus, PageWrites d.ota.fileLength d.ota.fileCrc d.ee (i2cWrites (effects d x))
  | .app f => pageWrites_app h.ota (otaHandle_move d.ota f)
  | .ctrl i => pageWrites_ctrl (ctrlHandle_move d.ctrl d.ee i)

/-! ### Runs -/

/-- At each page write of the event: while the flag is ready no byte of the image area changes, a
write that makes it ready is the last one and has the whole record, and the write is one of the
three kinds. -/
def FrozenAt (d : Device) (p : PowerEvent) : Prop :=
  ∀ xs w ys, i2cWrites (powerStep d p).2 = xs ++ w :: ys →
    (flagByte (xs.foldl deviceWrite d.ee) = ctrlOtaFlagReady → ∀ a, a < flagAddr →
      deviceWrite (xs.foldl deviceWrite d.ee) w a = xs.foldl deviceWrite d.ee a) ∧
    (flagByte (xs.foldl deviceWrite d.ee) ≠ ctrlOtaFlagReady →
      flagByte (deviceWrite (xs.foldl deviceWrite d.ee) w) = ctrlOtaFlagReady →
      ys = [] ∧ deviceWrite (xs.foldl deviceWrite d.ee) w =
        store (xs.foldl deviceWrite d.ee) flagAddr
          (readyRecord d.ota.fileLength d.ota.fileCrc)) ∧
    PageWrite d.ota.fileLength d.ota.fileCrc (xs.foldl deviceWrite d.ee) w ys

theorem frozenAt_of_inv {d : Device} (h : DeviceInv d) (p : PowerEvent) : FrozenAt d p := by
  have hall : PageWrites d.ota.fileLength d.ota.fileCrc d.ee (i2cWrites (powerStep d p).2) := by
    cases p with
    | run x => exact pageWrites_effects h x
    | cut x k =>
      have htake := (pageWrites_effects h x).take k
      rwa [← i2cWrites_upToWrite] at htake
  intro xs w ys hs
  have hw := hall xs w ys hs
  exact ⟨fun hf a ha => hw.image hf ha, hw.ready, hw⟩

/-- **The image area is frozen while the flag is ready**, at every page write of every run with
power cuts, from any EEPROM. -/
theorem frozen_run (e : Eeprom) (ps : List PowerEvent) : EachStep powerStep FrozenAt (boot e) ps :=
  eachStep_of_invariant (fun d p h _ => deviceInv_power d p h) (fun _ p h _ => frozenAt_of_inv h p)
    (deviceInv_boot e) (eachStep_true _ ps)

end BleHidUart.Firmware.Frozen
