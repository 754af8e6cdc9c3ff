import GameBoy.Proofs.Cpu.Interrupts

/-!
# The control part of the CPU

What is left of a CPU without its registers: the clock, the state of power, the interrupt master
enable with its queue, and the policy. Instructions work on registers and memory, and of some five
hundred of them five touch the control part at all:

| instruction | effect |
|---|---|
| STOP, HALT | the state of power |
| EI, DI | one more request in the queue |
| RETI | the master enable, at once |

`control_execute` says so, and says it by a function (`Control.execute`), so that nothing is left
open about the other instructions. No port is mentioned in a statement about the control part: what
is read from a port can only decide which instruction is executed.

The clock stands still while an instruction is executed and moves when its cost is charged.
`execute_isCost` bounds the cost: a multiple of four, at least 4 and at most 24.
-/

namespace GameBoy

/-- A CPU without its registers. -/
structure Control where
  /-- Ticks since the last reset. -/
  clock : Nat
  /-- Whether instructions are being fetched. -/
  power : Power
  /-- The interrupt master enable. -/
  ime : Bool
  /-- Changes of the master enable that are still to be applied. -/
  imeQueue : ImeQueue
  /-- What to do at an opcode without a meaning. -/
  policy : IllegalOpcodePolicy
deriving DecidableEq, Repr

/-- The control part of a CPU. -/
def Cpu.control (cpu : Cpu) : Control where
  clock := cpu.clock
  power := cpu.power
  ime := cpu.ime
  imeQueue := cpu.imeQueue
  policy := cpu.policy

namespace Control

/-- The control part after a change of the master enable has been requested. -/
def request (c : Control) (enable : Bool) : Control :=
  { c with imeQueue := c.imeQueue.push { enable, due := c.clock + Cpu.imeDelay } }

/-- What an instruction does to the control part before its cost is charged. -/
def execute (c : Control) : Instruction → Control
  | .stop => { c with power := .stopped }
  | .halt => { c with power := .halted }
  | .di => c.request false
  | .ei => c.request true
  | .reti => { c with ime := true }
  | _ => c

/-- The clock stands still until the cost is charged. -/
theorem clock_execute (c : Control) (i : Instruction) : (c.execute i).clock = c.clock := by
  cases i <;> rfl

end Control

namespace Board

variable {M : Type}

/-! ### Moves -/

@[simp] theorem control_setPair (s : Board M) (p : Pair) (w : UInt16) :
    (s.setPair p w).cpu.control = s.cpu.control := by
  cases p <;> rfl

@[simp] theorem control_setStackPair (s : Board M) (p : StackPair) (w : UInt16) :
    (s.setStackPair p w).cpu.control = s.cpu.control := by
  cases p <;> rfl

@[simp] theorem control_follow (s : Board M) (p : Pointer) :
    (s.follow p).2.cpu.control = s.cpu.control := by
  cases p <;> rfl

/-- Moving the program counter back leaves the control part alone. -/
@[simp] theorem control_rollBack (s : Board M) (attention : Attention) (pc : UInt16) :
    (s.rollBack attention pc).cpu.control = s.cpu.control := by
  cases attention <;> rfl

variable [Port M] (s : Board M)

/-- So does telling the port of an event. -/
@[simp] theorem control_note (e : Event) : (s.note e).cpu.control = s.cpu.control := rfl

@[simp] theorem control_pushWord (w : UInt16) : (s.pushWord w).cpu.control = s.cpu.control := rfl

@[simp] theorem control_readOperand (src : Operand) :
    (s.readOperand src).2.cpu.control = s.cpu.control := by
  cases src <;> rfl

@[simp] theorem control_writeOperand (dst : Operand) (v : UInt8) :
    (s.writeOperand dst v).cpu.control = s.cpu.control := by
  cases dst <;> rfl

/-! ### Instructions -/

@[simp] theorem control_modify (dst : Operand) (f : UInt8 → Flags → UInt8 × Flags) :
    (s.modify dst f).cpu.control = s.cpu.control :=
  (control_writeOperand ..).trans (control_readOperand ..)

@[simp] theorem control_jumpRelative (taken : Bool) :
    (s.jumpRelative taken).2.cpu.control = s.cpu.control := by
  cases taken <;> rfl

@[simp] theorem control_jump (taken : Bool) : (s.jump taken).2.cpu.control = s.cpu.control := by
  cases taken <;> rfl

@[simp] theorem control_call (taken : Bool) : (s.call taken).2.cpu.control = s.cpu.control := by
  cases taken with
  | false => rfl
  | true => exact control_pushWord s.fetchWord.2 s.fetchWord.2.cpu.regs.pc

/-- **What an instruction of the primary table does to the control part.** -/
theorem control_execute (i : Instruction) :
    (s.execute i).2.cpu.control = s.cpu.control.execute i := by
  cases i with
  | load dst src => exact (control_writeOperand ..).trans (control_readOperand ..)
  | loadImmediate dst => exact control_writeOperand ..
  | loadPair dst => exact control_setPair ..
  | storeA p => exact control_follow ..
  | loadA p => exact control_follow ..
  | inc dst => exact control_modify ..
  | dec dst => exact control_modify ..
  | incPair dst => exact control_setPair ..
  | decPair dst => exact control_setPair ..
  | alu op src => exact control_readOperand ..
  | jumpRelative guard => exact control_jumpRelative ..
  | jump guard => exact control_jump ..
  | call guard => exact control_call ..
  | retIf guard =>
    simp only [execute]
    split <;> rfl
  | pop dst => exact control_setStackPair ..
  | _ => rfl

/-- An instruction behind 0xCB leaves the control part alone. -/
theorem control_executeBit (i : BitInstruction) :
    (s.executeBit i).2.cpu.control = s.cpu.control := by
  cases i with
  | bit i src => exact control_readOperand ..
  | _ => exact control_modify ..

/-! ### Costs -/

/-- What the cost of an instruction can be. -/
def IsCost (ticks : Nat) : Prop := 4 ∣ ticks ∧ 4 ≤ ticks ∧ ticks ≤ 24

instance (ticks : Nat) : Decidable (IsCost ticks) :=
  inferInstanceAs (Decidable (_ ∧ _ ∧ _))

omit [Port M] in
theorem isCost_ite {p : Prop} [Decidable p] {x y : Nat} (hx : IsCost x) (hy : IsCost y) :
    IsCost (if p then x else y) := by
  split
  · exact hx
  · exact hy

/-- **Every instruction costs a multiple of four ticks**, at least 4 and at most 24. -/
theorem execute_isCost (i : Instruction) : IsCost (s.execute i).1 := by
  cases i with
  | load dst src => exact isCost_ite (by decide) (by decide)
  | loadImmediate dst => exact isCost_ite (by decide) (by decide)
  | inc dst => exact isCost_ite (by decide) (by decide)
  | dec dst => exact isCost_ite (by decide) (by decide)
  | alu op src => exact isCost_ite (by decide) (by decide)
  | jumpRelative guard => cases h : s.cpu.permits guard <;> simp [execute, jumpRelative, h, IsCost]
  | jump guard => cases h : s.cpu.permits guard <;> simp [execute, jump, h, IsCost]
  | call guard => cases h : s.cpu.permits guard <;> simp [execute, call, h, IsCost]
  | retIf guard => cases h : s.cpu.holds guard <;> simp [execute, h, IsCost]
  | _ => simp [execute, IsCost]

/-- Instructions behind 0xCB keep within the same bounds, prefix included. -/
theorem executeBit_isCost (i : BitInstruction) : IsCost (s.executeBit i).1 := by
  cases i <;> exact isCost_ite (by decide) (by decide)

end Board

end GameBoy
