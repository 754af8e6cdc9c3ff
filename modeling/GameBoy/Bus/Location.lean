/-!
# The memory map

Which part of the machine stands behind an address. `Location.ofAddress` is the whole map; reading
and writing are then defined on locations, so that what an address does is said once.

Work memory is visible twice: the addresses from 0xE000 to 0xFDFF are mapped to the cells 0x2000
lower, and no location knows from which of its two addresses it was reached.
-/

namespace GameBoy

/-- A register that belongs to a device or to the interrupt controller. -/
inductive Register where
  /-- The joypad register. -/
  | joypad
  /-- Serial data. -/
  | serialData
  /-- Serial control. -/
  | serialControl
  /-- The divider. -/
  | divider
  /-- The timer. -/
  | timer
  /-- The timer's modulo. -/
  | timerModulo
  /-- Timer control. -/
  | timerControl
  /-- Pending interrupt requests. -/
  | requests
  /-- Display control. -/
  | displayControl
  /-- Display status. -/
  | displayStatus
  /-- The current line. -/
  | line
  /-- The line to compare with. -/
  | lineCompare
  /-- The copy register of object memory. -/
  | objectCopy
  /-- Enabled interrupts. -/
  | enabled
deriving DecidableEq, Repr

/-- What stands behind an address. -/
inductive Location where
  /-- A byte of the program image, which cannot be written. -/
  | rom (a : UInt16)
  /-- A byte of memory. -/
  | cell (a : UInt16)
  /-- Nothing: reads as 0xFF, and writes are lost. -/
  | unused
  /-- A register. -/
  | register (r : Register)
deriving DecidableEq, Repr

/-- The register at an address, if there is one. -/
def Register.ofAddress? : UInt16 → Option Register
  | 0xFF00 => some .joypad
  | 0xFF01 => some .serialData
  | 0xFF02 => some .serialControl
  | 0xFF04 => some .divider
  | 0xFF05 => some .timer
  | 0xFF06 => some .timerModulo
  | 0xFF07 => some .timerControl
  | 0xFF0F => some .requests
  | 0xFF40 => some .displayControl
  | 0xFF41 => some .displayStatus
  | 0xFF44 => some .line
  | 0xFF45 => some .lineCompare
  | 0xFF46 => some .objectCopy
  | 0xFFFF => some .enabled
  | _ => none

namespace Location

/-- The number of addresses of the program image. -/
def romSize : Nat := 0x8000

/-- What stands behind an address. -/
def ofAddress (a : UInt16) : Location :=
  if a < 0x8000 then rom a
  else if a < 0xE000 then cell a
  else if a < 0xFE00 then cell (a - 0x2000)
  else if a < 0xFEA0 then cell a
  else if a < 0xFF00 then unused
  else
    match Register.ofAddress? a with
    | some r => register r
    | none => cell a

end Location

end GameBoy
