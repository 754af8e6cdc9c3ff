import GameBoy.Interrupt
import GameBoy.Cpu.Registers

/-!
# Notable events

What the machine does that a person following a run would want to be told: opcodes without a
meaning, interrupts, changes of the interrupt master enable, and the three device switches that
are easy to miss. An event holds the facts; how urgent it is and how it reads are decided where
journals are written.
-/

namespace GameBoy

/-- Something worth telling about a run. -/
inductive Event where
  /-- A button press has ended STOP. -/
  | stopEnded (clock : Nat)
  /-- A pending request has ended HALT while interrupts were disabled. -/
  | haltEnded (source : Interrupt) (pc : UInt16)
  /-- Control has passed to a handler; `sp` is the stack pointer after the return address. -/
  | interruptTaken (source : Interrupt) (pc sp : UInt16) (pending enabled : InterruptSet)
  /-- The byte 0xFD at `pc` has been passed over. -/
  | opcodePassed (pc : UInt16)
  /-- Execution has stopped at a byte without a meaning. -/
  | opcodeRejected (opcode : UInt8) (regs : Registers)
  /-- A byte without a meaning has been skipped. -/
  | opcodeIgnored (opcode : UInt8) (pc : UInt16)
  /-- A deferred change of the interrupt master enable has taken effect. -/
  | imeChanged (enable : Bool) (clock due : Nat)
  /-- The display has been switched on or off while line `line` was current. -/
  | displaySwitched (on : Bool) (line : Nat)
  /-- A serial transfer waits for a partner's clock. -/
  | transferWaiting (data : UInt8)
  /-- A copy into object memory has been started. -/
  | copyStarted (source : UInt16)
  /-- A ROM image is too large to be mapped whole. -/
  | romTruncated (size mapped : Nat)
  /-- A ROM image has been mapped. -/
  | romLoaded (size : Nat)
deriving DecidableEq, Repr

end GameBoy
