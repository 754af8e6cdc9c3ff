import GameBoy.Proofs.Cpu.Stages

/-!
# Instructions do not look at the control part

An instruction works on the registers and through the port, and nothing of what it does there
depends on the clock, the state of power, the master enable, its queue or the policy. So the control
part of a board may be exchanged before an instruction or after it:

```
(s.withControl c).execute i = ((s.execute i).1, (s.execute i).2.withControl (c.execute i))
```

Two boards that differ in their control parts only go through the same registers and the same
accesses; what becomes of the control parts is `Control.execute` on each side.
-/

namespace GameBoy

/-- The CPU with another control part. -/
def Cpu.withControl (cpu : Cpu) (c : Control) : Cpu where
  regs := cpu.regs
  clock := c.clock
  power := c.power
  ime := c.ime
  imeQueue := c.imeQueue
  policy := c.policy

@[simp] theorem Cpu.control_withControl (cpu : Cpu) (c : Control) :
    (cpu.withControl c).control = c := rfl

namespace Board

variable {M : Type} (s : Board M) (c : Control)

/-- The board with another control part. -/
def withControl : Board M := { s with cpu := s.cpu.withControl c }

@[simp] theorem withControl_regs : (s.withControl c).cpu.regs = s.cpu.regs := rfl

@[simp] theorem withControl_bus : (s.withControl c).bus = s.bus := rfl

@[simp] theorem control_withControl : (s.withControl c).cpu.control = c := rfl

@[simp] theorem withControl_control : s.withControl s.cpu.control = s := rfl

/-! ### Moves -/

theorem withControl_setFlags (fs : Flags) :
    (s.withControl c).setFlags fs = (s.setFlags fs).withControl c := rfl

theorem withControl_setPair (p : Pair) (w : UInt16) :
    (s.withControl c).setPair p w = (s.setPair p w).withControl c := by
  cases p <;> rfl

theorem withControl_setStackPair (p : StackPair) (w : UInt16) :
    (s.withControl c).setStackPair p w = (s.setStackPair p w).withControl c := by
  cases p <;> rfl

theorem withControl_pair (p : Pair) : (s.withControl c).pair p = s.pair p := by
  cases p <;> rfl

theorem withControl_stackPair (p : StackPair) : (s.withControl c).stackPair p = s.stackPair p := by
  cases p <;> rfl

theorem withControl_follow (p : Pointer) :
    (s.withControl c).follow p = ((s.follow p).1, (s.follow p).2.withControl c) := by
  cases p <;> rfl

theorem withControl_permits (guard : Option Condition) :
    (s.withControl c).cpu.permits guard = s.cpu.permits guard := by
  cases guard with
  | none => rfl
  | some condition => cases condition <;> rfl

theorem withControl_holds (condition : Condition) :
    (s.withControl c).cpu.holds condition = s.cpu.holds condition := by
  cases condition <;> rfl

variable [Port M]

/-- A fetch does not depend on the control part. -/
theorem withControl_fetch :
    (s.withControl c).fetch = (s.fetch.1, s.fetch.2.withControl c) := rfl

theorem withControl_fetchWord :
    (s.withControl c).fetchWord = (s.fetchWord.1, s.fetchWord.2.withControl c) := rfl

theorem withControl_popWord :
    (s.withControl c).popWord = (s.popWord.1, s.popWord.2.withControl c) := rfl

theorem withControl_readOperand (src : Operand) :
    (s.withControl c).readOperand src =
      ((s.readOperand src).1, (s.readOperand src).2.withControl c) := by
  cases src <;> rfl

theorem withControl_writeOperand (dst : Operand) (v : UInt8) :
    (s.withControl c).writeOperand dst v = (s.writeOperand dst v).withControl c := by
  cases dst <;> rfl

theorem withControl_modify (dst : Operand) (f : UInt8 → Flags → UInt8 × Flags) :
    (s.withControl c).modify dst f = (s.modify dst f).withControl c := by
  simp only [modify, withControl_readOperand, withControl_regs, withControl_setFlags,
    withControl_writeOperand]

theorem withControl_jumpRelative (taken : Bool) :
    (s.withControl c).jumpRelative taken =
      ((s.jumpRelative taken).1, (s.jumpRelative taken).2.withControl c) := by
  cases taken <;> rfl

theorem withControl_jump (taken : Bool) :
    (s.withControl c).jump taken = ((s.jump taken).1, (s.jump taken).2.withControl c) := by
  cases taken <;> rfl

theorem withControl_call (taken : Bool) :
    (s.withControl c).call taken = ((s.call taken).1, (s.call taken).2.withControl c) := by
  cases taken <;> rfl

/-! ### Instructions -/

/-- **An instruction does the same whatever the control part is.** -/
theorem execute_withControl (i : Instruction) :
    (s.withControl c).execute i =
      ((s.execute i).1, (s.execute i).2.withControl (c.execute i)) := by
  cases i with
  | load dst src =>
    simp only [execute, withControl_readOperand, withControl_writeOperand, Control.execute]
  | loadImmediate dst =>
    simp only [execute, withControl_fetch, withControl_writeOperand, Control.execute]
  | loadPair dst => simp only [execute, withControl_fetchWord, withControl_setPair, Control.execute]
  | storeA p | loadA p => simp only [execute, withControl_follow]; rfl
  | inc dst | dec dst => simp only [execute, withControl_modify, Control.execute]
  | incPair dst | decPair dst =>
    simp only [execute, withControl_pair, withControl_setPair, Control.execute]
  | addHL src => simp only [execute, withControl_pair]; rfl
  | alu op src => simp only [execute, withControl_readOperand]; rfl
  | jumpRelative guard => simp only [execute, withControl_permits, withControl_jumpRelative]; rfl
  | jump guard => simp only [execute, withControl_permits, withControl_jump]; rfl
  | call guard => simp only [execute, withControl_permits, withControl_call]; rfl
  | retIf guard =>
    simp only [execute, withControl_holds]
    split <;> rfl
  | push src => simp only [execute, withControl_stackPair]; rfl
  | pop dst =>
    simp only [execute, withControl_popWord, withControl_setStackPair, Control.execute]
  | _ => rfl

/-- An instruction behind 0xCB does the same whatever the control part is. -/
theorem executeBit_withControl (i : BitInstruction) :
    (s.withControl c).executeBit i = ((s.executeBit i).1, (s.executeBit i).2.withControl c) := by
  cases i with
  | bit i src => simp only [executeBit, withControl_readOperand]; rfl
  | _ => simp only [executeBit, withControl_modify]

/-- The opcode that comes next does not depend on the control part either. -/
theorem fetchOpcode_withControl :
    (s.withControl c).fetchOpcode = (s.fetchOpcode.1, s.fetchOpcode.2.withControl c) := by
  by_cases hagain : Opcode.decode s.fetch.1 = .again
  · have hagain' : Opcode.decode (s.withControl c).fetch.1 = .again := hagain
    simp only [fetchOpcode, if_pos hagain, if_pos hagain']
    rfl
  · have hagain' : Opcode.decode (s.withControl c).fetch.1 ≠ .again := hagain
    simp only [fetchOpcode, if_neg hagain, if_neg hagain']
    rfl

end Board

end GameBoy
