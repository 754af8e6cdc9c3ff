import GameBoy.Cpu.Basic
import GameBoy.Port

/-!
# A CPU and what it is attached to

`Board M` pairs a CPU with a port of type `M`. The operations below are the moves out of which
instructions are made: fetching, reading and writing operands, and the stack. Each returns the
board after the move, and those that deliver something return it in front.
-/

namespace GameBoy

/-- A CPU together with the port it is attached to. -/
structure Board (M : Type) where
  /-- The CPU. -/
  cpu : Cpu
  /-- What the CPU reads and writes. -/
  bus : M

namespace Board

variable {M : Type} [Port M]

/-! ### Registers -/

/-- The board with other registers. -/
def setRegs (s : Board M) (r : Registers) : Board M := { s with cpu := { s.cpu with regs := r } }

/-- The board with another program counter. -/
def setPC (s : Board M) (pc : UInt16) : Board M := s.setRegs { s.cpu.regs with pc }

/-- The board with another stack pointer. -/
def setSP (s : Board M) (sp : UInt16) : Board M := s.setRegs { s.cpu.regs with sp }

/-- The board with another accumulator. -/
def setA (s : Board M) (a : UInt8) : Board M := s.setRegs { s.cpu.regs with a }

/-- The board with other flags. -/
def setFlags (s : Board M) (flags : Flags) : Board M := s.setRegs { s.cpu.regs with flags }

/-- The board with the CPU in another state of power. -/
def setPower (s : Board M) (power : Power) : Board M := { s with cpu := { s.cpu with power } }

/-- The board with another interrupt master enable. -/
def setIme (s : Board M) (ime : Bool) : Board M := { s with cpu := { s.cpu with ime } }

/-- The board with the clock moved forward. -/
def elapse (s : Board M) (ticks : Nat) : Board M :=
  { s with cpu := { s.cpu with clock := s.cpu.clock + ticks } }

/-- Tells the port of an event. -/
def note (s : Board M) (e : Event) : Board M := { s with bus := Port.note s.bus e }

/-! ### Memory -/

/-- Reads a byte. -/
def read (s : Board M) (a : UInt16) : UInt8 × Board M :=
  let (v, bus) := Port.read s.bus a
  (v, { s with bus })

/-- Writes a byte. -/
def write (s : Board M) (a : UInt16) (v : UInt8) : Board M :=
  { s with bus := Port.write s.bus a v }

/-- Reads the byte at the program counter and moves on to the next. -/
def fetch (s : Board M) : UInt8 × Board M :=
  let pc := s.cpu.regs.pc
  let (v, s) := s.read pc
  (v, s.setPC (pc + 1))

/-- Fetches a word, low byte first. -/
def fetchWord (s : Board M) : UInt16 × Board M :=
  let (low, s) := s.fetch
  let (high, s) := s.fetch
  (word high low, s)

/-- Pushes a word: its high byte below the stack pointer, its low byte below that. -/
def pushWord (s : Board M) (w : UInt16) : Board M :=
  let s := s.setSP (s.cpu.regs.sp - 1)
  let s := s.write s.cpu.regs.sp (highByte w)
  let s := s.setSP (s.cpu.regs.sp - 1)
  s.write s.cpu.regs.sp (lowByte w)

/-- Pops a word: its low byte at the stack pointer, its high byte above that. -/
def popWord (s : Board M) : UInt16 × Board M :=
  let sp := s.cpu.regs.sp
  let (low, s) := s.read sp
  let (high, s) := s.read (sp + 1)
  (word high low, s.setSP (sp + 2))

/-! ### Operands -/

/-- Reads a byte operand. -/
def readOperand (s : Board M) : Operand → UInt8 × Board M
  | .b => (s.cpu.regs.b, s)
  | .c => (s.cpu.regs.c, s)
  | .d => (s.cpu.regs.d, s)
  | .e => (s.cpu.regs.e, s)
  | .h => (s.cpu.regs.h, s)
  | .l => (s.cpu.regs.l, s)
  | .atHL => s.read s.cpu.regs.hl
  | .a => (s.cpu.regs.a, s)

/-- Writes a byte operand. -/
def writeOperand (s : Board M) (dst : Operand) (v : UInt8) : Board M :=
  match dst with
  | .b => s.setRegs { s.cpu.regs with b := v }
  | .c => s.setRegs { s.cpu.regs with c := v }
  | .d => s.setRegs { s.cpu.regs with d := v }
  | .e => s.setRegs { s.cpu.regs with e := v }
  | .h => s.setRegs { s.cpu.regs with h := v }
  | .l => s.setRegs { s.cpu.regs with l := v }
  | .atHL => s.write s.cpu.regs.hl v
  | .a => s.setA v

/-- The value of a word operand. -/
def pair (s : Board M) : Pair → UInt16
  | .bc => s.cpu.regs.bc
  | .de => s.cpu.regs.de
  | .hl => s.cpu.regs.hl
  | .sp => s.cpu.regs.sp

/-- Writes a word operand. -/
def setPair (s : Board M) (dst : Pair) (w : UInt16) : Board M :=
  match dst with
  | .bc => s.setRegs (s.cpu.regs.setBC w)
  | .de => s.setRegs (s.cpu.regs.setDE w)
  | .hl => s.setRegs (s.cpu.regs.setHL w)
  | .sp => s.setSP w

/-- The value of a word operand of PUSH. -/
def stackPair (s : Board M) : StackPair → UInt16
  | .bc => s.cpu.regs.bc
  | .de => s.cpu.regs.de
  | .hl => s.cpu.regs.hl
  | .af => s.cpu.regs.af

/-- Writes a word operand of POP. -/
def setStackPair (s : Board M) (dst : StackPair) (w : UInt16) : Board M :=
  match dst with
  | .bc => s.setRegs (s.cpu.regs.setBC w)
  | .de => s.setRegs (s.cpu.regs.setDE w)
  | .hl => s.setRegs (s.cpu.regs.setHL w)
  | .af => s.setRegs (s.cpu.regs.setAF w)

/-- The address a pointer holds; a pointer that moves has moved afterwards. -/
def follow (s : Board M) : Pointer → UInt16 × Board M
  | .bc => (s.cpu.regs.bc, s)
  | .de => (s.cpu.regs.de, s)
  | .hlUp => (s.cpu.regs.hl, s.setRegs (s.cpu.regs.setHL (s.cpu.regs.hl + 1)))
  | .hlDown => (s.cpu.regs.hl, s.setRegs (s.cpu.regs.setHL (s.cpu.regs.hl - 1)))

end Board

end GameBoy
