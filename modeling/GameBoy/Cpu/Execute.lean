import GameBoy.Cpu.Alu
import GameBoy.Cpu.Board

/-!
# Executing instructions

What each instruction does to a board, and what it costs in ticks. The opcode bytes have been
fetched by the time an instruction is executed here; operands that follow them have not. The cost
is returned and not charged, so that an instruction sees the clock at which it began.

`execute` covers the primary table and `executeBit` the table behind 0xCB. Costs differ between
register operands and the operand in memory, and between jumps that are taken and those that are
not; both distinctions are made where the instruction is.
-/

namespace GameBoy.Board

variable {M : Type} [Port M]

/-! ### Families of instructions -/

/-- The first address of the high page, which one-byte addresses are offsets into. -/
def highPage (offset : UInt8) : UInt16 := 0xFF00 + offset.toUInt16

/-- Combines the accumulator with a byte. -/
def alu (s : Board M) (op : AluOp) (v : UInt8) : Board M :=
  let (a, flags) := Alu.apply op s.cpu.regs.a v s.cpu.regs.flags
  s.setRegs { s.cpu.regs with a, flags }

/-- Loads a byte operand with the result of an operation on it. -/
def modify (s : Board M) (dst : Operand) (f : UInt8 → Flags → UInt8 × Flags) : Board M :=
  let (v, s) := s.readOperand dst
  let (result, flags) := f v s.cpu.regs.flags
  (s.setFlags flags).writeOperand dst result

/-- Jumps by a displacement, counted from the instruction that follows. -/
def jumpRelative (s : Board M) (taken : Bool) : Nat × Board M :=
  let (e, s) := s.fetch
  if taken then (12, s.setPC (s.cpu.regs.pc + signExtend e)) else (8, s)

/-- Jumps to the word that follows. -/
def jump (s : Board M) (taken : Bool) : Nat × Board M :=
  let (target, s) := s.fetchWord
  if taken then (16, s.setPC target) else (12, s)

/-- Calls the subroutine at the word that follows. -/
def call (s : Board M) (taken : Bool) : Nat × Board M :=
  let (target, s) := s.fetchWord
  if taken then (24, (s.pushWord s.cpu.regs.pc).setPC target) else (12, s)

/-- Returns to the address on the stack. -/
def ret (s : Board M) : Board M :=
  let (target, s) := s.popWord
  s.setPC target

/-! ### The primary table -/

/-- Executes an instruction of the primary table and tells what it costs. -/
def execute (s : Board M) : Instruction → Nat × Board M
  | .nop => (4, s)
  | .stop =>
    -- The byte after STOP is fetched and means nothing.
    let (_, s) := s.fetch
    (4, s.setPower .stopped)
  | .halt => (4, s.setPower .halted)
  | .di => (4, { s with cpu := s.cpu.requestIme false })
  | .ei => (4, { s with cpu := s.cpu.requestIme true })
  | .load dst src =>
    let (v, s) := s.readOperand src
    (if dst = .atHL ∨ src = .atHL then 8 else 4, s.writeOperand dst v)
  | .loadImmediate dst =>
    let (v, s) := s.fetch
    (if dst = .atHL then 12 else 8, s.writeOperand dst v)
  | .loadPair dst =>
    let (w, s) := s.fetchWord
    (12, s.setPair dst w)
  | .storeA p =>
    let (a, s) := s.follow p
    (8, s.write a s.cpu.regs.a)
  | .loadA p =>
    let (a, s) := s.follow p
    let (v, s) := s.read a
    (8, s.setA v)
  | .storeADirect =>
    let (a, s) := s.fetchWord
    (16, s.write a s.cpu.regs.a)
  | .loadADirect =>
    let (a, s) := s.fetchWord
    let (v, s) := s.read a
    (16, s.setA v)
  | .storeAHigh =>
    let (offset, s) := s.fetch
    (12, s.write (highPage offset) s.cpu.regs.a)
  | .loadAHigh =>
    let (offset, s) := s.fetch
    let (v, s) := s.read (highPage offset)
    (12, s.setA v)
  | .storeAHighC => (8, s.write (highPage s.cpu.regs.c) s.cpu.regs.a)
  | .loadAHighC =>
    let (v, s) := s.read (highPage s.cpu.regs.c)
    (8, s.setA v)
  | .storeSP =>
    let (a, s) := s.fetchWord
    (20, { s with bus := Port.writeWord s.bus a s.cpu.regs.sp })
  | .loadSP => (8, s.setSP s.cpu.regs.hl)
  | .loadHLOffset =>
    let (e, s) := s.fetch
    let (w, flags) := Alu.addOffset s.cpu.regs.sp e
    (12, s.setRegs ({ s.cpu.regs with flags }.setHL w))
  | .inc dst => (if dst = .atHL then 12 else 4, s.modify dst Alu.inc)
  | .dec dst => (if dst = .atHL then 12 else 4, s.modify dst Alu.dec)
  | .incPair dst => (8, s.setPair dst (s.pair dst + 1))
  | .decPair dst => (8, s.setPair dst (s.pair dst - 1))
  | .addHL src =>
    let (w, flags) := Alu.addWords s.cpu.regs.hl (s.pair src) s.cpu.regs.flags
    (8, s.setRegs ({ s.cpu.regs with flags }.setHL w))
  | .addSP =>
    let (e, s) := s.fetch
    let (sp, flags) := Alu.addOffset s.cpu.regs.sp e
    (16, s.setRegs { s.cpu.regs with sp, flags })
  | .alu op src =>
    let (v, s) := s.readOperand src
    (if src = .atHL then 8 else 4, s.alu op v)
  | .aluImmediate op =>
    let (v, s) := s.fetch
    (8, s.alu op v)
  | .rotateA r =>
    -- Unlike the rotations behind 0xCB, these clear the zero flag whatever the result.
    let (a, c) := Alu.rotate r s.cpu.regs.a s.cpu.regs.flags.c
    (4, s.setRegs { s.cpu.regs with a, flags := .of false false false c })
  | .daa =>
    let (a, flags) := Alu.decimalAdjust s.cpu.regs.a s.cpu.regs.flags
    (4, s.setRegs { s.cpu.regs with a, flags })
  | .cpl =>
    let flags := (s.cpu.regs.flags.set .h true).set .n true
    (4, s.setRegs { s.cpu.regs with a := ~~~s.cpu.regs.a, flags })
  | .scf => (4, s.setFlags (((s.cpu.regs.flags.set .c true).set .h false).set .n false))
  | .ccf =>
    let c := !s.cpu.regs.flags.c
    (4, s.setFlags (((s.cpu.regs.flags.set .c c).set .h false).set .n false))
  | .jumpRelative guard => s.jumpRelative (s.cpu.permits guard)
  | .jump guard => s.jump (s.cpu.permits guard)
  | .jumpHL => (4, s.setPC s.cpu.regs.hl)
  | .call guard => s.call (s.cpu.permits guard)
  | .ret => (16, s.ret)
  | .retIf guard => if s.cpu.holds guard then (20, s.ret) else (8, s)
  | .reti => (16, s.ret.setIme true)
  | .rst slot => (16, (s.pushWord s.cpu.regs.pc).setPC (UInt16.ofNat (8 * slot)))
  | .push src => (16, s.pushWord (s.stackPair src))
  | .pop dst =>
    let (w, s) := s.popWord
    (12, s.setStackPair dst w)

/-! ### The table behind 0xCB -/

/-- Executes an instruction of the table behind 0xCB and tells what it costs, prefix included. -/
def executeBit (s : Board M) : BitInstruction → Nat × Board M
  | .shift op dst =>
    let moved := fun v (fs : Flags) ↦
      let (result, c) := Alu.shift op v fs.c
      (result, .of (result == 0) false false c)
    (if dst = .atHL then 16 else 8, s.modify dst moved)
  | .bit i src =>
    let (v, s) := s.readOperand src
    (if src = .atHL then 12 else 8, s.setFlags (Alu.testBit i v s.cpu.regs.flags))
  | .res i dst =>
    (if dst = .atHL then 16 else 8, s.modify dst fun v fs ↦ (v &&& ~~~Alu.bitMask i, fs))
  | .set i dst =>
    (if dst = .atHL then 16 else 8, s.modify dst fun v fs ↦ (v ||| Alu.bitMask i, fs))

end GameBoy.Board
