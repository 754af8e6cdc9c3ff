import GameBoy.Proofs.Cpu.Arithmetic
import GameBoy.Proofs.Cpu.Footprint
import GameBoy.Proofs.Cpu.Stages

/-!
# The operations of the accumulator

Two blocks of opcodes combine the accumulator with another byte: with one of the eight operands, or
with the byte behind the opcode. Both have the same eight operations, in the same order.

`AluOp.exact` is what an operation comes to as an operation on numbers, which need not be a byte: it
may be too great for one, or negative. A byte takes its place (`Alu.Cuts`), and the flags tell what
has been lost: the carry, whether the number was beyond a byte, and the half carry, whether the same
operation on the two lower halves is beyond a half. A bitwise operation is beyond neither, so it
leaves no carry; but AND sets the half carry nevertheless.

`Board.accumulator_block` says so of the opcodes, together with everything that they leave alone.
-/

namespace GameBoy

/-- The operations, by the three bits of an opcode that select one. -/
def AluOp.rows : Vector AluOp 8 := #v[.add, .adc, .sub, .sbc, .and, .xor, .or, .cp]

/-- **What an operation comes to**, as an operation on numbers. -/
def AluOp.exact (op : AluOp) (a v : Nat) (carry : Bool) : Int :=
  match op with
  | .add => a + v
  | .adc => a + v + carry.toNat
  | .sub | .cp => a - v
  | .sbc => a - v - carry.toNat
  | .and => (a &&& v : Nat)
  | .xor => (a ^^^ v : Nat)
  | .or => (a ||| v : Nat)

namespace Alu

/-! ### Numbers that are cut to a byte -/

/-- **A byte in place of a number** `x`, with the flags that go with it. On the two lower halves the
same operation comes to `low`, and `half` is whether it sets the half carry in any case. -/
structure Cuts (x low : Int) (half : Bool) (r : UInt8) (fs : Flags) : Prop where
  /-- The byte is the number, up to multiples of 256. -/
  value_eq : (r.toNat : Int) = x % 256
  /-- Zero tells whether nothing is left of the number. -/
  z_eq : fs.z = decide (x % 256 = 0)
  /-- The half carry tells whether the lower halves have left theirs. -/
  h_eq : fs.h = (half || decide (low < 0 ∨ 15 < low))
  /-- The carry tells whether the number was beyond a byte. -/
  c_eq : fs.c = decide (x < 0 ∨ 255 < x)
  /-- There is nothing else in the register. -/
  clean : fs.Clean

/-- A byte is zero when the number that it stands for is. -/
theorem beq_zero_of_toNat_eq {r : UInt8} {x : Int} (h : (r.toNat : Int) = x) :
    (r == 0) = decide (x = 0) := by
  subst h
  rw [Bool.eq_iff_iff, beq_iff_eq, decide_eq_true_iff, ← UInt8.toNat_inj]
  exact (Int.natCast_eq_zero (n := r.toNat)).symm

variable (a v : UInt8) (carry : Bool)

theorem cuts_add :
    Cuts (a.toNat + v.toNat + carry.toNat)
      ((a.toNat % 16 : Nat) + (v.toNat % 16 : Nat) + carry.toNat) false
      (add a v carry).1 (add a v carry).2 := by
  have hvalue : ((add a v carry).1.toNat : Int) = (a.toNat + v.toNat + carry.toNat) % 256 := by
    rw [toNat_add]
    omega
  have hz : (add a v carry).2.z = decide _ :=
    (Flags.z_of ..).trans (beq_zero_of_toNat_eq hvalue)
  refine ⟨hvalue, hz, ?_, ?_, Flags.clean_of ..⟩
  · rw [h_add, Bool.false_or, decide_eq_decide]
    omega
  · rw [c_add, decide_eq_decide]
    omega

theorem cuts_sub :
    Cuts (a.toNat - v.toNat - carry.toNat)
      ((a.toNat % 16 : Nat) - (v.toNat % 16 : Nat) - carry.toNat) false
      (sub a v carry).1 (sub a v carry).2 := by
  have ha := a.toNat_lt
  have hv := v.toNat_lt
  have hcarry := carry.toNat_le
  have hvalue : ((sub a v carry).1.toNat : Int) = (a.toNat - v.toNat - carry.toNat) % 256 := by
    rw [toNat_sub]
    omega
  have hz : (sub a v carry).2.z = decide _ :=
    (Flags.z_of ..).trans (beq_zero_of_toNat_eq hvalue)
  refine ⟨hvalue, hz, ?_, ?_, Flags.clean_of ..⟩
  · rw [h_sub, Bool.false_or, decide_eq_decide]
    omega
  · rw [c_sub, decide_eq_decide]
    omega

/-- The result of a bitwise operation is the byte that it comes to. -/
theorem cuts_logic {x low : Nat} {half : Bool} {r : UInt8} (hr : r.toNat = x) (hlow : low < 16) :
    Cuts x low half (logic r half).1 (logic r half).2 := by
  have hlt := r.toNat_lt
  have hvalue : (r.toNat : Int) = x % 256 := by omega
  have hz : (logic r half).2.z = decide _ := (Flags.z_of ..).trans (beq_zero_of_toNat_eq hvalue)
  refine ⟨hvalue, hz, ?_, ?_, Flags.clean_of ..⟩
  · have hwithin : ¬ ((low : Int) < 0 ∨ 15 < (low : Int)) := by omega
    rw [decide_eq_false hwithin, Bool.or_false]
    exact Flags.h_of ..
  · have hbyte : ¬ ((x : Int) < 0 ∨ 255 < (x : Int)) := by omega
    rw [decide_eq_false hbyte]
    exact Flags.c_of ..

/-- **Every operation cuts what it comes to.** A comparison keeps the accumulator, and any other
operation leaves there what it has cut. -/
theorem cuts_apply (op : AluOp) (fs : Flags) :
    ∃ r, (apply op a v fs).1 = (if op = .cp then a else r) ∧
      Cuts (op.exact a.toNat v.toNat fs.c) (op.exact (a.toNat % 16) (v.toNat % 16) fs.c)
        (op = .and) r (apply op a v fs).2 := by
  have ha : a.toNat % 16 < 2 ^ 4 := Nat.mod_lt _ (by decide)
  have hv : v.toNat % 16 < 2 ^ 4 := Nat.mod_lt _ (by decide)
  cases op with
  | add => exact ⟨_, rfl, by simpa [AluOp.exact, apply] using cuts_add a v false⟩
  | adc => exact ⟨_, rfl, cuts_add a v fs.c⟩
  | sub => exact ⟨_, rfl, by simpa [AluOp.exact, apply] using cuts_sub a v false⟩
  | sbc => exact ⟨_, rfl, cuts_sub a v fs.c⟩
  | and => exact ⟨_, rfl, cuts_logic (UInt8.toNat_and a v) (Nat.and_lt_two_pow _ hv)⟩
  | xor => exact ⟨_, rfl, cuts_logic (UInt8.toNat_xor a v) (Nat.xor_lt_two_pow ha hv)⟩
  | or => exact ⟨_, rfl, cuts_logic (UInt8.toNat_or a v) (Nat.or_lt_two_pow ha hv)⟩
  | cp => exact ⟨_, rfl, by simpa [AluOp.exact, apply] using cuts_sub a v false⟩

/-- Subtractions are marked as such. -/
theorem n_apply (op : AluOp) (fs : Flags) :
    (apply op a v fs).2.n = decide (op ∈ [.sub, .sbc, .cp]) := by
  cases op <;> exact Flags.n_of ..

/-- The carries of a bitwise operation do not depend on its operands. -/
theorem carries_apply {op : AluOp} (hop : op ∈ [.and, .xor, .or]) (fs : Flags) :
    (apply op a v fs).2.c = false ∧ (apply op a v fs).2.h = decide (op = .and) := by
  cases op with
  | and | xor | or => exact ⟨Flags.c_of .., Flags.h_of ..⟩
  | _ => exact absurd hop (by decide)

end Alu

/-! ### The opcodes -/

namespace Opcode

/-- The opcodes that combine the accumulator with an operand. -/
theorem decode_combining (row column : Fin 8) :
    decode (.ofNat (0x80 + 8 * row + column)) =
      .instruction (.alu (AluOp.rows.get row) (.ofField column)) := by
  decide +revert

/-- The opcodes that combine it with the byte behind them. -/
theorem decode_combiningNext (row : Fin 8) :
    decode (.ofNat (0xC6 + 8 * row)) = .instruction (.aluImmediate (AluOp.rows.get row)) := by
  decide +revert

end Opcode

namespace Board

/-- **The accumulator is combined with a byte** by an instruction of so many bytes, in so many
ticks. Besides the accumulator and the flags only the program counter and the clock change. -/
def Accumulates (s : Board Memory) (op : AluOp) (v : UInt8) (length : UInt16) (ticks : Nat) :
    Prop :=
  let r := s.cpu.regs
  let x := op.exact r.a.toNat v.toNat r.flags.c
  let low := op.exact (r.a.toNat % 16) (v.toNat % 16) r.flags.c
  ∃ result flags, Alu.Cuts x low (op = .and) result flags ∧
    flags.n = decide (op ∈ [.sub, .sbc, .cp]) ∧
    (op ∈ [.and, .xor, .or] → flags.c = false ∧ flags.h = decide (op = .and)) ∧
    s.executeOne = (.ok ticks,
      { s with
        cpu := { s.cpu with
          regs := { r with a := if op = .cp then r.a else result, flags, pc := r.pc + length }
          clock := s.cpu.clock + ticks } })

theorem accumulates_of_executeOne {s : Board Memory} {op : AluOp} {v : UInt8} {length : UInt16}
    {ticks : Nat}
    (h : s.executeOne =
      (.ok ticks, ((s.alu op v).setPC (s.cpu.regs.pc + length)).elapse ticks)) :
    s.Accumulates op v length ticks := by
  obtain ⟨result, hresult, hcuts⟩ := Alu.cuts_apply s.cpu.regs.a v op s.cpu.regs.flags
  refine ⟨result, _, hcuts, Alu.n_apply .., fun hop ↦ Alu.carries_apply _ _ hop _, ?_⟩
  rw [h, ← hresult]
  rfl

/-- **The accumulator is combined with an operand or with the next byte.** The three middle bits of
the opcode select the operation, and in the first block the three lower ones the operand, which is
read before anything is changed. -/
theorem accumulator_block (s : Board Memory) (row column : Fin 8) :
    let opcode := s.bus.get s.cpu.regs.pc
    let op := AluOp.rows.get row
    (opcode = .ofNat (0x80 + 8 * row + column) →
      s.Accumulates op (s.operandBytes.get column) 1 (if column = 6 then 8 else 4)) ∧
    (opcode = .ofNat (0xC6 + 8 * row) →
      s.Accumulates op (s.bus.get (s.cpu.regs.pc + 1)) 2 8) := by
  intro opcode op
  refine ⟨fun hopcode ↦ accumulates_of_executeOne ?_, fun hopcode ↦ accumulates_of_executeOne ?_⟩
  · have hdecode : Opcode.decode s.fetch.1 = .instruction (.alu op (.ofField column)) :=
      (congrArg Opcode.decode hopcode).trans (Opcode.decode_combining row column)
    rw [executeOne_of_instruction s hdecode]
    simp only [execute, snd_readOperand, fst_readOperand_ofField, Operand.ofField_eq_atHL_iff]
    rfl
  · have hdecode : Opcode.decode s.fetch.1 = .instruction (.aluImmediate op) :=
      (congrArg Opcode.decode hopcode).trans (Opcode.decode_combiningNext row)
    have hpc : s.cpu.regs.pc + 1 + 1 = s.cpu.regs.pc + 2 := UInt16.add_assoc s.cpu.regs.pc 1 1
    rw [executeOne_of_instruction s hdecode, ← hpc]
    rfl

/-- A subtraction with the borrow at the last address of memory, to which HL points as well: the
opcode is its own operand. The accumulator is equal to it. -/
def subtractingItself : Board Memory where
  cpu := { Cpu.powerOn .fatal with
    regs := { Cpu.initialRegisters with a := 0x9E, h := 0xFF, l := 0xFF, pc := 0xFFFF } }
  bus := (Memory.fill 0xE6).set 0xFFFF 0x9E

theorem accumulator_block_of_subtractingItself :
    (subtractingItself.Accumulates .sbc 0x9E 1 8 ∧
      subtractingItself.executeOne.2.cpu.regs.a = 0xFF ∧
      subtractingItself.executeOne.2.cpu.regs.flags = .of false true true true) ∧
    (subtractingItself.setPC 0).Accumulates .and 0xE6 2 8 := by
  have hsbc := (accumulator_block subtractingItself 3 6).1 rfl
  refine ⟨⟨hsbc, ?_⟩, (accumulator_block (subtractingItself.setPC 0) 4 0).2 rfl⟩
  obtain ⟨result, flags, hcuts, hn, -, hone⟩ := hsbc
  have hvalue : (result.toNat : Int) = (0xFF : UInt8).toNat := hcuts.value_eq
  rw [hone]
  refine ⟨UInt8.toNat_inj.mp (Int.ofNat.inj hvalue), ?_⟩
  change flags = _
  rw [hcuts.clean.eq_of, hcuts.z_eq, hn, hcuts.h_eq, hcuts.c_eq]
  rfl

end Board

end GameBoy
