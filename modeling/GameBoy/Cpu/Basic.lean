import GameBoy.Cpu.ImeQueue
import GameBoy.Cpu.Instruction
import GameBoy.Cpu.Registers

/-!
# The state of the CPU

Registers, a clock, the state of power, the interrupt master enable with its queue of deferred
changes, and one setting: what to do at an opcode without a meaning. The setting belongs to the
session and not to the machine's history, so `Cpu.reset` keeps it.
-/

namespace GameBoy

/-- The address at which a program begins. -/
def resetVector : UInt16 := 0x0100

/-- Whether the CPU is fetching instructions. -/
inductive Power where
  /-- Instructions are executed. -/
  | running
  /-- Asleep until an enabled interrupt is pending. -/
  | halted
  /-- Asleep until a button is pressed. -/
  | stopped
deriving DecidableEq, Repr, Inhabited

/-- What to do at an opcode without a meaning. -/
inductive IllegalOpcodePolicy where
  /-- Stop with a fault. -/
  | fatal
  /-- Spend four ticks and go on with the next byte. -/
  | ignore
deriving DecidableEq, Repr, Inhabited

/-- The state of the CPU. -/
structure Cpu where
  /-- The registers. -/
  regs : Registers := {}
  /-- Ticks since the last reset. -/
  clock : Nat := 0
  /-- Whether instructions are being fetched. -/
  power : Power := .running
  /-- The interrupt master enable. -/
  ime : Bool := false
  /-- Changes of the master enable that are still to be applied. -/
  imeQueue : ImeQueue := {}
  /-- What to do at an opcode without a meaning. -/
  policy : IllegalOpcodePolicy := .fatal
deriving DecidableEq, Repr

namespace Cpu

/-- The registers as a program finds them when it begins. -/
def initialRegisters : Registers where
  a := 0x01
  flags := .ofByte 0xB0
  b := 0x00
  c := 0x13
  d := 0x00
  e := 0xD8
  h := 0x01
  l := 0x4D
  sp := 0xFFFE
  pc := resetVector

/-- A program finds the zero flag set when it begins. -/
theorem z_initialRegisters : initialRegisters.flags.z = true := by
  decide

/-- The CPU as a program finds it when it begins. -/
def powerOn (policy : IllegalOpcodePolicy) : Cpu :=
  { regs := initialRegisters, ime := true, policy }

/-- The CPU brought back to where a program begins. -/
def reset (cpu : Cpu) : Cpu := { powerOn cpu.policy with imeQueue := cpu.imeQueue.clear }

/-- Enters or leaves HALT. Leaving it means something only while halted. -/
def setHalted (cpu : Cpu) (halted : Bool) : Cpu :=
  if halted then { cpu with power := .halted }
  else if cpu.power = .halted then { cpu with power := .running }
  else cpu

/-- Enters or leaves STOP. Leaving it means something only while stopped. -/
def setStopped (cpu : Cpu) (stopped : Bool) : Cpu :=
  if stopped then { cpu with power := .stopped }
  else if cpu.power = .stopped then { cpu with power := .running }
  else cpu

/-- Sets one condition flag. -/
def setFlag (cpu : Cpu) (f : Flag) (v : Bool) : Cpu :=
  { cpu with regs := { cpu.regs with flags := cpu.regs.flags.set f v } }

/-- Clears the condition flags. -/
def clearFlags (cpu : Cpu) : Cpu := { cpu with regs := cpu.regs.setF 0 }

/-- Whether a condition on the flags holds. -/
def holds (cpu : Cpu) : Condition → Bool
  | .nz => !cpu.regs.flags.z
  | .z => cpu.regs.flags.z
  | .nc => !cpu.regs.flags.c
  | .c => cpu.regs.flags.c

/-- Whether a jump under this guard is taken. -/
def permits (cpu : Cpu) (guard : Option Condition) : Bool := guard.all cpu.holds

/-- The ticks from the start of a requesting instruction to the earliest tick that its change has to
wait for: one more than the cheapest instruction takes, so another instruction completes first. -/
def imeDelay : Nat := 5

/-- Requests a change of the interrupt master enable. -/
def requestIme (cpu : Cpu) (enable : Bool) : Cpu :=
  { cpu with imeQueue := cpu.imeQueue.push { enable, due := cpu.clock + imeDelay } }

end Cpu

end GameBoy
