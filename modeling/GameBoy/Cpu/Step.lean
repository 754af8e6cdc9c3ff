import GameBoy.Cpu.Execute
import GameBoy.Cpu.Fault

/-!
# Steps of the CPU

`executeOne` fetches one instruction, executes it and charges its cost. `step` is the whole of what
the CPU does between two looks at its devices:

1. interrupts are looked at, which may wake the CPU and may pass control to a handler
   (`serviceInterrupts`);
2. one instruction is executed, or four ticks are spent asleep;
3. at most one deferred change of the interrupt master enable is applied;
4. if HALT has ended while interrupts were disabled, the program counter goes back to where it was.

A fault ends a step where it arises. What was done before it stays done, so a fault comes with the
board as it is then, and not in place of it.
-/

namespace GameBoy

/-- The address of the request register. -/
def requestAddress : UInt16 := 0xFF0F

/-- The address of the enable register. -/
def enableAddress : UInt16 := 0xFFFF

namespace Board

variable {M : Type} [Port M]

/-! ### One instruction -/

/-- Charges the cost of what has just been executed. -/
def charge (s : Board M) (ticks : Nat) : Except Fault Nat × Board M :=
  (.ok ticks, s.elapse ticks)

/-- What happens at a byte without a meaning, when `owed` ticks are still to be charged. -/
def meetHole (s : Board M) (owed : Nat) (opcode : UInt8) (pc : UInt16) :
    Except Fault Nat × Board M :=
  match s.cpu.policy with
  | .fatal =>
    -- The program counter is left on the byte itself.
    let s := s.setPC pc
    (.error { opcode, table := .primary, pc }, s.note (.opcodeRejected opcode s.cpu.regs))
  | .ignore => (s.note (.opcodeIgnored opcode pc)).charge (owed + 4)

/-- Executes the instruction that begins with `opcode`, which has just been fetched from `pc`, when
`owed` ticks are still to be charged. -/
def executeOpcode (s : Board M) (owed : Nat) (opcode : UInt8) (pc : UInt16) :
    Except Fault Nat × Board M :=
  match Opcode.decode opcode with
  | .instruction i =>
    let (cost, s) := s.execute i
    s.charge (owed + cost)
  | .extended =>
    let (k, s) := s.fetch
    let (cost, s) := s.executeBit (.decode k)
    s.charge (owed + cost)
  | .again | .hole => s.meetHole owed opcode pc

/-- Executes the instruction at the program counter. Returns its cost, which has been charged. -/
def executeOne (s : Board M) : Except Fault Nat × Board M :=
  let pc := s.cpu.regs.pc
  let (opcode, s) := s.fetch
  if Opcode.decode opcode = .again then
    -- The byte after 0xFD is decoded in its place, once: a second 0xFD means nothing.
    let s := s.note (.opcodePassed pc)
    let pc := s.cpu.regs.pc
    let (opcode, s) := s.fetch
    s.executeOpcode 4 opcode pc
  else s.executeOpcode 0 opcode pc

/-! ### Interrupts -/

/-- What looking at the interrupts has led to. -/
inductive Attention where
  /-- Nothing was enabled and pending, or nothing was looked at. -/
  | idle
  /-- Control has passed to the handler of a source. -/
  | dispatched (source : Interrupt)
  /-- HALT has ended without a handler being called, because interrupts are disabled. -/
  | haltEnded (source : Interrupt)
deriving DecidableEq, Repr

/-- The ticks spent on passing control to a handler. -/
def dispatchTicks : Nat := 20

/-- Acknowledges a source and passes control to its handler. -/
def dispatch (s : Board M) (source : Interrupt) (pending enabled : InterruptSet) : Board M :=
  let pc := s.cpu.regs.pc
  let s := (s.write requestAddress (pending.erase source).toByte).setIme false
  let s := ((s.pushWord pc).setPC source.vector).elapse dispatchTicks
  s.note (.interruptTaken source pc s.cpu.regs.sp pending enabled)

/-- Looks for a source that is enabled and pending, unless interrupts are disabled and the CPU is
awake. A source that is found ends HALT, and is dispatched if interrupts are enabled. -/
def attend (s : Board M) (pending : InterruptSet) : Attention × Board M :=
  if !s.cpu.ime && s.cpu.power ≠ .halted then (.idle, s)
  else
    let (v, s) := s.read enableAddress
    let enabled := InterruptSet.ofByte v
    match (enabled ∩ pending).highest? with
    | none => (.idle, s)
    | some source =>
      let halted := s.cpu.power = .halted
      let s := if halted then s.setPower .running else s
      if halted ∧ !s.cpu.ime then
        (.haltEnded source, s.note (.haltEnded source s.cpu.regs.pc))
      else (.dispatched source, s.dispatch source pending enabled)

/-- Looks at the interrupts. While stopped, only a button request is looked at. -/
def serviceInterrupts (s : Board M) : Attention × Board M :=
  let (v, s) := s.read requestAddress
  let pending := InterruptSet.ofByte v
  if s.cpu.power = .stopped then
    if .joypad ∈ pending then
      ((s.note (.stopEnded s.cpu.clock)).setPower .running).attend pending
    else (.idle, s)
  else s.attend pending

/-! ### Whole steps -/

/-- The ticks that pass in a step while asleep. -/
def idleTicks : Nat := 4

/-- Executes one instruction if the CPU is awake, and lets time pass if it is not. -/
def executeOrSleep (s : Board M) : Except Fault Nat × Board M :=
  if s.cpu.power = .running then s.executeOne else s.charge idleTicks

/-- Applies the oldest deferred change of the interrupt master enable, if it is due. -/
def applyDueIme (s : Board M) : Board M :=
  match s.cpu.imeQueue.popDue s.cpu.clock with
  | none => s
  | some (change, imeQueue) =>
    let s := s.note (.imeChanged change.enable s.cpu.clock change.due)
    { s with cpu := { s.cpu with ime := change.enable, imeQueue } }

/-- Undoes the movement of the program counter if HALT has ended without a handler. -/
def rollBack (s : Board M) (attention : Attention) (pc : UInt16) : Board M :=
  match attention with
  | .haltEnded _ => s.setPC pc
  | _ => s

/-- One step of the CPU. Returns the ticks it took. -/
def step (s : Board M) : Except Fault Nat × Board M :=
  let start := s.cpu
  let (attention, s) := s.serviceInterrupts
  match s.executeOrSleep with
  | (.error e, s) => (.error e, s)
  | (.ok _, s) =>
    let s := s.applyDueIme.rollBack attention start.regs.pc
    (.ok (s.cpu.clock - start.clock), s)

end Board

end GameBoy
