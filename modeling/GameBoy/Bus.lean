import GameBoy.Bus.Location
import GameBoy.Bus.PowerOn
import GameBoy.Device.Joypad
import GameBoy.Device.ObjectCopy
import GameBoy.Device.Serial
import GameBoy.Device.Timer
import GameBoy.Device.Video
import GameBoy.Port

/-!
# The bus

The memory of the machine, its five devices, and the two interrupt registers, seen through the
memory map. Reading has no effect. Writing reaches exactly one location, and time does not pass:
the devices move only in `Bus.catchUp`, which brings each of them up to a given tick and collects
what they request.

The enable register keeps all eight bits that are written to it; the request register keeps five
and reads the others as one.
-/

namespace GameBoy

/-- Everything the CPU is attached to. -/
structure Bus where
  /-- Plain memory, the program image included. -/
  memory : Memory
  /-- Pending interrupt requests. -/
  requests : InterruptSet
  /-- The enable register. -/
  enabled : UInt8
  /-- The timer. -/
  timer : Timer
  /-- The serial port. -/
  serial : Serial
  /-- The joypad. -/
  joypad : Joypad
  /-- The display. -/
  video : Video
  /-- The copying engine of object memory. -/
  objectCopy : ObjectCopy

namespace Bus

/-! ### Beginning -/

/-- Memory at power-on, without a program image. -/
def initialMemory : Memory := .ofFn PowerOn.byte

/-- The bus at power-on. A request for the vertical blank is left over from the start-up sequence. -/
def powerOn (capture : Bool) : Bus where
  memory := initialMemory
  requests := {.vblank}
  enabled := 0
  timer := {}
  serial := { capture }
  joypad := {}
  video := {}
  objectCopy := {}

/-- The bus brought back to power-on. The program image stays mapped, held buttons stay held, and
the serial port goes on recording or not, as before. -/
def reset (bus : Bus) : Bus where
  memory := .ofFn fun a ↦ if a.toNat < Location.romSize then bus.memory.get a else PowerOn.byte a
  requests := {.vblank}
  enabled := 0
  timer := {}
  serial := bus.serial.reset
  joypad := bus.joypad.reset
  video := {}
  objectCopy := {}

/-- Maps a program image. What lies beyond the mapped addresses is not visible, and addresses
beyond the end of the image read as 0xFF. -/
def loadRom (bus : Bus) (rom : Array UInt8) : Bus :=
  { bus with
    memory := .ofFn fun a ↦
      if a.toNat < Location.romSize then rom[a.toNat]?.getD 0xFF else bus.memory.get a }

/-! ### Reading and writing -/

/-- The byte that a register shows. -/
def readRegister (bus : Bus) : Register → UInt8
  | .joypad => bus.joypad.control
  | .serialData => bus.serial.data
  | .serialControl => bus.serial.control
  | .divider => bus.timer.divider
  | .timer => bus.timer.count
  | .timerModulo => bus.timer.modulo
  | .timerControl => bus.timer.control
  | .requests => bus.requests.toByte ||| 0xE0
  | .displayControl => bus.video.control
  | .displayStatus => bus.video.status
  | .line => bus.video.lineRegister
  | .lineCompare => bus.video.compare
  | .objectCopy => bus.objectCopy.register
  | .enabled => bus.enabled

/-- Writes a register. The current line cannot be written. -/
def writeRegister (bus : Bus) (r : Register) (v : UInt8) : Bus :=
  match r with
  | .joypad => { bus with joypad := bus.joypad.setControl v }
  | .serialData => { bus with serial := bus.serial.setData v }
  | .serialControl => { bus with serial := bus.serial.setControl v }
  | .divider => { bus with timer := bus.timer.clearDivider }
  | .timer => { bus with timer := bus.timer.setCount v }
  | .timerModulo => { bus with timer := bus.timer.setModulo v }
  | .timerControl => { bus with timer := bus.timer.setControl v }
  | .requests => { bus with requests := .ofByte v }
  | .displayControl => { bus with video := bus.video.setControl v }
  | .displayStatus => { bus with video := bus.video.setStatus v }
  | .line => bus
  | .lineCompare => { bus with video := bus.video.setCompare v }
  | .objectCopy => { bus with objectCopy := bus.objectCopy.start v }
  | .enabled => { bus with enabled := v }

/-- The byte at an address. -/
def read (bus : Bus) (a : UInt16) : UInt8 :=
  match Location.ofAddress a with
  | .rom a => bus.memory.get a
  | .cell a => bus.memory.get a
  | .unused => 0xFF
  | .register r => bus.readRegister r

/-- Writes a byte to an address. -/
def write (bus : Bus) (a : UInt16) (v : UInt8) : Bus :=
  match Location.ofAddress a with
  | .rom _ => bus
  | .cell a => { bus with memory := bus.memory.set a v }
  | .unused => bus
  | .register r => bus.writeRegister r v

instance : Port Bus where
  read bus a := (bus.read a, bus)
  write := write

/-! ### Time and the outside world -/

/-- Brings every device up to a tick. -/
def catchUp (bus : Bus) (target : Nat) : Bus :=
  let (_, timer, requests) := Peripheral.catchUp target bus.timer bus.requests
  let (_, serial, requests) := Peripheral.catchUp target bus.serial requests
  let (_, joypad, requests) := Peripheral.catchUp target bus.joypad requests
  let (_, video, requests) := Peripheral.catchUp target bus.video requests
  let channel : ObjectCopy.Channel := { engine := bus.objectCopy, memory := bus.memory }
  let (_, channel, requests) := Peripheral.catchUp target channel requests
  { bus with
    timer, serial, joypad, video, requests
    memory := channel.memory, objectCopy := channel.engine }

/-- Adds interrupt requests from outside. -/
def request (bus : Bus) (sources : InterruptSet) : Bus :=
  { bus with requests := bus.requests ∪ sources }

/-- Presses or releases a button. -/
def setButton (bus : Bus) (button : Button) (held : Bool) : Bus :=
  { bus with joypad := bus.joypad.setButton button held }

/-- The bytes sent over the serial port and not taken yet, and the bus without them. -/
def takeSerialOutput (bus : Bus) : Array UInt8 × Bus :=
  let (output, serial) := bus.serial.takeOutput
  (output, { bus with serial })

end Bus

end GameBoy
