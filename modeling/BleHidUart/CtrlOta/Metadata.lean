import BleHidUart.Eeprom

/-!
# The metadata page

The last page of the EEPROM holds the ready flag, the length and the CRC of the downloaded file:
`flag len₀ len₁ len₂ len₃ crc₀ crc₁ crc₂ crc₃` from `CTRL_OTA_FLAG_ADDR` on. The app side writes it
when a download is complete (`ctrlOtaSetotaReadyflag`), the controller side reads it at boot.
-/

namespace BleHidUart.CtrlOta.Metadata

open BleHidUart.Board BleHidUart.Eeprom BleHidUart.Lib.Memory BleHidUart.Lib.Word

def ctrlOtaFlagAddr : UInt32 := eepromSize - eepromPageSize
def ctrlOtaMetaFileLen : UInt32 := ctrlOtaFlagAddr + 1
def ctrlOtaFlagReady : UInt8 := 0x01
def ctrlOtaFlagIdle : UInt8 := 0x00

/-- The record `Ctrl_ota_setota_readyflag` writes. -/
def readyRecord (fileLength fileCrc : UInt32) : List UInt8 :=
  [ctrlOtaFlagReady,
    byte32 fileLength 0, byte32 fileLength 1, byte32 fileLength 2, byte32 fileLength 3,
    byte32 fileCrc 0, byte32 fileCrc 1, byte32 fileCrc 2, byte32 fileCrc 3]

/-- `Ctrl_ota_setota_readyflag`. -/
def ctrlOtaSetotaReadyflag (fileLength fileCrc : UInt32) : List Effect :=
  eepromWrite ctrlOtaFlagAddr (readyRecord fileLength fileCrc)

/-- The flag byte written alone: `EepromWrite(CTRL_OTA_FLAG_ADDR, &flag, 1)`. -/
def writeFlag (flag : UInt8) : List Effect := eepromWrite ctrlOtaFlagAddr [flag]

@[simp] theorem notifications_readyflag (fileLength fileCrc : UInt32) :
    notifications (ctrlOtaSetotaReadyflag fileLength fileCrc) = [] := notifications_eepromWrite _ _

@[simp] theorem notifications_writeFlag (flag : UInt8) : notifications (writeFlag flag) = [] :=
  notifications_eepromWrite _ _

/-! ### What the page says -/

/-- The address of the flag, which is also the size of the image area. -/
abbrev flagAddr : ℕ := 0x1FF00

theorem flagAddr_add_page : flagAddr + 256 = 0x20000 := rfl

def flagByte (e : Eeprom) : UInt8 := e flagAddr

def storedLength (e : Eeprom) : UInt32 := le32At (slice e (flagAddr + 1) 8) 0

def storedCrc (e : Eeprom) : UInt32 := le32At (slice e (flagAddr + 1) 8) 4

@[simp] theorem toNat_ctrlOtaFlagAddr : ctrlOtaFlagAddr.toNat = flagAddr := rfl

theorem toNat_ctrlOtaMetaFileLen : ctrlOtaMetaFileLen.toNat = flagAddr + 1 := rfl

theorem stored_congr {e e' : Eeprom} (h : ∀ i, flagAddr ≤ i → i < flagAddr + 9 → e i = e' i) :
    flagByte e = flagByte e' ∧ storedLength e = storedLength e' ∧ storedCrc e = storedCrc e' := by
  have hs : slice e (flagAddr + 1) 8 = slice e' (flagAddr + 1) 8 :=
    slice_congr fun i h1 h2 => h i (by omega) (by omega)
  exact ⟨h _ le_rfl (by omega), by rw [storedLength, storedLength, hs],
    by rw [storedCrc, storedCrc, hs]⟩

/-! ### The two writes of the page -/

theorem applyEffects_writeFlag (e : Eeprom) (flag : UInt8) :
    applyEffects e (writeFlag flag) = store e flagAddr [flag] :=
  applyEffects_eepromWrite (by simp [flagAddr]) e

theorem applyEffects_readyflag (e : Eeprom) (len crc : UInt32) :
    applyEffects e (ctrlOtaSetotaReadyflag len crc) = store e flagAddr (readyRecord len crc) :=
  applyEffects_eepromWrite (by simp [readyRecord, flagAddr]) e

theorem i2cWrites_readyflag (len crc : UInt32) : ∃ w,
    i2cWrites (ctrlOtaSetotaReadyflag len crc) = [w] := by
  rw [ctrlOtaSetotaReadyflag, i2cWrites_eepromWrite]
  exact ⟨_, i2cEepromWrite_of_page (by simp [readyRecord]) (by simp [readyRecord, flagAddr])⟩

theorem i2cWrites_writeFlag (flag : UInt8) : ∃ w, i2cWrites (writeFlag flag) = [w] := by
  rw [writeFlag, i2cWrites_eepromWrite]
  exact ⟨_, i2cEepromWrite_of_page (by simp) (by simp [flagAddr])⟩

@[simp] theorem flagByte_store_flag (e : Eeprom) (flag : UInt8) (bs : List UInt8) :
    flagByte (store e flagAddr (flag :: bs)) = flag := by
  rw [flagByte, store_cons, store_of_lt _ (by omega), Function.update_self]

theorem flagByte_store_record (e : Eeprom) (len crc : UInt32) :
    flagByte (store e flagAddr (readyRecord len crc)) = ctrlOtaFlagReady :=
  flagByte_store_flag e _ _

theorem slice_store_record (e : Eeprom) (len crc : UInt32) :
    slice (store e flagAddr (readyRecord len crc)) (flagAddr + 1) 8 =
      (readyRecord len crc).tail := by
  have h := slice_store e flagAddr (readyRecord len crc)
  rw [show (readyRecord len crc).length = 8 + 1 from rfl, slice_succ] at h
  exact (List.cons.inj h).2

theorem storedLength_store_record (e : Eeprom) (len crc : UInt32) :
    storedLength (store e flagAddr (readyRecord len crc)) = len := by
  rw [storedLength, slice_store_record]
  exact le32_byte32 len

theorem storedCrc_store_record (e : Eeprom) (len crc : UInt32) :
    storedCrc (store e flagAddr (readyRecord len crc)) = crc := by
  rw [storedCrc, slice_store_record]
  exact le32_byte32 crc

theorem stored_store_of_le {e : Eeprom} {a : ℕ} {bs : List UInt8} (h : a + bs.length ≤ flagAddr) :
    flagByte (store e a bs) = flagByte e ∧ storedLength (store e a bs) = storedLength e ∧
      storedCrc (store e a bs) = storedCrc e :=
  stored_congr fun _ h1 _ => store_of_ge (by omega)

end BleHidUart.CtrlOta.Metadata
