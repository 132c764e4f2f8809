import BleHidUart.Lib.Memory
import BleHidUart.Lib.Word

/-!
# The board: effects of the firmware and the I2C EEPROM

A handler of the firmware returns its effects in the order it has them: `i2c_write` transactions to
the EEPROM, bytes on the UART to the controller, notifications to the app and LED states.

The EEPROM has 128 KB in two blocks of 64 KB, written in pages of 256 bytes. The device itself is
not part of the firmware: `deviceWrite` and `deviceRead` say how it answers a transaction. A write
of `[hi, lo, data]` to the address `0x50 | b` stores the data in block `b` from offset `hi:lo` on
and wraps inside the page; a sequential read advances inside the block.
-/

namespace BleHidUart.Board

open BleHidUart.Lib.Word

/-! ### Effects -/

/-- `led_state_t`. -/
inductive LedState
  | off | greenOn | redOn | redFastBlink | redSlowBlink | greenFastBlink
  deriving DecidableEq, Repr

/-- One `i2c_write` transaction: the device address and the bytes sent to it. -/
structure I2cWrite where
  devAddr : UInt8
  tx : List UInt8
  deriving DecidableEq, Repr

/-- What the firmware does to the outside. A notification has the bytes the caller wrote into its
buffer and the length it passes to `bt_ven_notify`. -/
inductive Effect
  | i2c (w : I2cWrite)
  | uart (data : List UInt8)
  | notify (data : List UInt8) (len : ℕ)
  | led (state : LedState)
  deriving DecidableEq, Repr

/-- The cells of the EEPROM. -/
abbrev Eeprom := ℕ → UInt8

/-- The head of every V3 frame. -/
def v3FrameHead0 : UInt8 := 0x53
def v3FrameHead1 : UInt8 := 0x35

def eepromI2cBaseAddr7Bit : UInt32 := 0x50
def eepromPageSize : UInt32 := 256
def eepromSize : UInt32 := 256 * 512

/-! ### The device -/

/-- Data stored in the page at `base` from offset `off` on, wrapping inside the page. -/
def pageStore (e : Eeprom) (base off : ℕ) : List UInt8 → Eeprom
  | [] => e
  | b :: bs => pageStore (Function.update e (base + off % 256) b) base (off + 1) bs

/-- The first cell of the block a device address selects. -/
def blockBase (devAddr : UInt8) : ℕ := (devAddr &&& 1).toNat * 0x10000

/-- The device's answer to a write transaction. -/
def deviceWrite (e : Eeprom) (w : I2cWrite) : Eeprom :=
  match w.tx with
  | hi :: lo :: data => pageStore e (blockBase w.devAddr + hi.toNat * 256) lo.toNat data
  | _ => e

/-- The device's answer to a sequential read of `n` bytes after `[hi, lo]` was sent to it. -/
def deviceRead (e : Eeprom) (devAddr hi lo : UInt8) (n : ℕ) : List UInt8 :=
  (List.range n).map fun k => e (blockBase devAddr + (hi.toNat * 256 + lo.toNat + k) % 0x10000)

/-- The EEPROM after the effects of a handler. -/
def applyEffect (e : Eeprom) : Effect → Eeprom
  | .i2c w => deviceWrite e w
  | _ => e

def applyEffects (e : Eeprom) (fx : List Effect) : Eeprom := fx.foldl applyEffect e

/-- The page writes among the effects. -/
def i2cWrites (fx : List Effect) : List I2cWrite :=
  fx.filterMap fun | .i2c w => some w | _ => none

/-- The notifications among the effects: the bytes of the buffer and the length passed with them. -/
def notifications (fx : List Effect) : List (List UInt8 × ℕ) :=
  fx.filterMap fun | .notify data len => some (data, len) | _ => none

/-- The bytes that go out on the UART, write by write. -/
def uartWrites (fx : List Effect) : List (List UInt8) :=
  fx.filterMap fun | .uart data => some data | _ => none

theorem mem_uartWrites {d : List UInt8} {fx : List Effect} : d ∈ uartWrites fx ↔ .uart d ∈ fx := by
  unfold uartWrites
  rw [List.mem_filterMap]
  constructor
  · rintro ⟨o, ho, heq⟩
    cases o with
    | uart d' => exact Option.some.inj heq ▸ ho
    | i2c | notify | led => cases heq
  · exact fun h => ⟨_, h, rfl⟩

/-- The LED states that are set. -/
def ledStates (fx : List Effect) : List LedState := fx.filterMap fun | .led s => some s | _ => none

@[simp] theorem applyEffects_nil (e : Eeprom) : applyEffects e [] = e := rfl

@[simp] theorem applyEffects_cons (e : Eeprom) (f : Effect) (fx : List Effect) :
    applyEffects e (f :: fx) = applyEffects (applyEffect e f) fx := rfl

@[simp] theorem applyEffects_append (e : Eeprom) (fx gx : List Effect) :
    applyEffects e (fx ++ gx) = applyEffects (applyEffects e fx) gx := List.foldl_append

@[simp] theorem i2cWrites_nil : i2cWrites [] = [] := rfl

@[simp] theorem i2cWrites_i2c (w : I2cWrite) (fx : List Effect) :
    i2cWrites (.i2c w :: fx) = w :: i2cWrites fx := rfl

@[simp] theorem i2cWrites_uart (data : List UInt8) (fx : List Effect) :
    i2cWrites (.uart data :: fx) = i2cWrites fx := rfl

@[simp] theorem i2cWrites_notify (data : List UInt8) (len : ℕ) (fx : List Effect) :
    i2cWrites (.notify data len :: fx) = i2cWrites fx := rfl

@[simp] theorem i2cWrites_led (s : LedState) (fx : List Effect) :
    i2cWrites (.led s :: fx) = i2cWrites fx := rfl

@[simp] theorem i2cWrites_append (fx gx : List Effect) :
    i2cWrites (fx ++ gx) = i2cWrites fx ++ i2cWrites gx := List.filterMap_append

@[simp] theorem notifications_nil : notifications [] = [] := rfl

@[simp] theorem notifications_i2c (w : I2cWrite) (fx : List Effect) :
    notifications (.i2c w :: fx) = notifications fx := rfl

@[simp] theorem notifications_uart (data : List UInt8) (fx : List Effect) :
    notifications (.uart data :: fx) = notifications fx := rfl

@[simp] theorem notifications_notify (data : List UInt8) (len : ℕ) (fx : List Effect) :
    notifications (.notify data len :: fx) = (data, len) :: notifications fx := rfl

@[simp] theorem notifications_led (s : LedState) (fx : List Effect) :
    notifications (.led s :: fx) = notifications fx := rfl

@[simp] theorem notifications_append (fx gx : List Effect) :
    notifications (fx ++ gx) = notifications fx ++ notifications gx := List.filterMap_append

@[simp] theorem uartWrites_nil : uartWrites [] = [] := rfl

@[simp] theorem uartWrites_i2c (w : I2cWrite) (fx : List Effect) :
    uartWrites (.i2c w :: fx) = uartWrites fx := rfl

@[simp] theorem uartWrites_uart (data : List UInt8) (fx : List Effect) :
    uartWrites (.uart data :: fx) = data :: uartWrites fx := rfl

@[simp] theorem uartWrites_notify (data : List UInt8) (len : ℕ) (fx : List Effect) :
    uartWrites (.notify data len :: fx) = uartWrites fx := rfl

@[simp] theorem uartWrites_led (s : LedState) (fx : List Effect) :
    uartWrites (.led s :: fx) = uartWrites fx := rfl

@[simp] theorem uartWrites_append (fx gx : List Effect) :
    uartWrites (fx ++ gx) = uartWrites fx ++ uartWrites gx := List.filterMap_append

theorem applyEffects_eq_foldl (e : Eeprom) (fx : List Effect) :
    applyEffects e fx = (i2cWrites fx).foldl deviceWrite e := by
  induction fx generalizing e with
  | nil => rfl
  | cons f fx ih => cases f <;> simp [ih, applyEffect]

/-! ### The driver -/

/-- `eeprom_i2c_addr`. -/
def eepromI2cAddr (memAddr : UInt32) : UInt8 :=
  (eepromI2cBaseAddr7Bit ||| ((memAddr >>> 16) &&& 0x01)).toUInt8

/-- The loop of `I2c_eeprom_write`: one transaction for each page. Every round writes a byte, so
`fuel` rounds are enough for a buffer of `fuel` bytes. -/
def i2cEepromWriteLoop : ℕ → UInt32 → List UInt8 → List I2cWrite
  | 0, _, _ => []
  | fuel + 1, memAddr, buf =>
    if buf.length = 0 then []
    else
      let pageOff := memAddr &&& (eepromPageSize - 1)
      let space := eepromPageSize - pageOff
      let chunk := if buf.length < space.toNat then buf.length else space.toNat
      ⟨eepromI2cAddr memAddr, byte32 memAddr 1 :: byte32 memAddr 0 :: buf.take chunk⟩ ::
        i2cEepromWriteLoop fuel (memAddr + UInt32.ofNat chunk) (buf.drop chunk)

/-- `I2c_eeprom_write`. -/
def i2cEepromWrite (memAddr : UInt32) (buf : List UInt8) : List I2cWrite :=
  i2cEepromWriteLoop buf.length memAddr buf

/-- The loop of `I2c_eeprom_read`: one sequential read for each block. -/
def i2cEepromReadLoop (e : Eeprom) : ℕ → UInt32 → ℕ → List UInt8
  | 0, _, _ => []
  | fuel + 1, memAddr, len =>
    if len = 0 then []
    else
      let blockEnd : UInt32 := if memAddr &&& 0x10000 ≠ 0 then 0x20000 else 0x10000
      let space := blockEnd - memAddr
      let chunk := if len < space.toNat then len else space.toNat
      deviceRead e (eepromI2cAddr memAddr) (byte32 memAddr 1) (byte32 memAddr 0) chunk ++
        i2cEepromReadLoop e fuel (memAddr + UInt32.ofNat chunk) (len - chunk)

/-- `I2c_eeprom_read`. -/
def i2cEepromRead (e : Eeprom) (memAddr : UInt32) (len : ℕ) : List UInt8 :=
  i2cEepromReadLoop e len memAddr len

/-- `EepromErase`. The erase loop of `I2c_eeprom_erase` is commented out: nothing is written. -/
def eepromErase (_addr _size : UInt32) : List Effect := []

/-- `EepromWrite`. -/
def eepromWrite (addr : UInt32) (data : List UInt8) : List Effect :=
  (i2cEepromWrite addr data).map .i2c

/-- `EepromRead`. -/
def eepromRead (e : Eeprom) (addr : UInt32) (len : ℕ) : List UInt8 := i2cEepromRead e addr len

@[simp] theorem i2cWrites_eepromWrite (addr : UInt32) (data : List UInt8) :
    i2cWrites (eepromWrite addr data) = i2cEepromWrite addr data := by
  simp [i2cWrites, eepromWrite, List.filterMap_map]

@[simp] theorem notifications_eepromWrite (addr : UInt32) (data : List UInt8) :
    notifications (eepromWrite addr data) = [] := by
  simp [notifications, eepromWrite, List.filterMap_map]

@[simp] theorem uartWrites_eepromWrite (addr : UInt32) (data : List UInt8) :
    uartWrites (eepromWrite addr data) = [] := by
  simp [uartWrites, eepromWrite, List.filterMap_map]

@[simp] theorem eepromErase_eq (addr size : UInt32) : eepromErase addr size = [] := rfl

end BleHidUart.Board
