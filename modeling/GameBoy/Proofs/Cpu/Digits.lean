import GameBoy.Proofs.Cpu.Faults
import GameBoy.Proofs.Cpu.Frame
import Mathlib.Data.Nat.Digits.Defs

/-!
# Digits that are linked by the carry

A program works on a number of many digits by executing the same instructions once for each digit,
and the carry flag takes along what one digit leaves for the next. What else the program does
between two digits is of no importance, as long as the carry survives it. So every digit has a board
of its own here, on which its instructions are executed, and the boards of a number are linked by
the carry and by nothing else (`Board.Linked`).

At each place one equation holds between the digit before, the digit after, and the carries that
come in and go out. Such equations add up to one of the same shape between the numbers, whatever
they say and whatever the base is: `Linked.ofDigits_eq` for a computation that begins with the least
significant digit, `Linked.ofDigits_reverse_eq` for one that begins with the most significant one.

What is done at a place is told by the instruction that stands there (`Board.instruction`), by the
bytes that it works on, and by the board that it leaves (`Board.executed`).
-/

namespace GameBoy

namespace Board

/-! ### Digits that are linked by the carry -/

/-- The carry flag. -/
def carry {M : Type} (s : Board M) : Bool := s.cpu.regs.flags.c

section Linked

variable (run : Board Memory → Board Memory)

/-- **The carry is handed on**: what is run at a place begins with the carry that the place before
has left, and at the first one with a given carry. -/
def Linked : Bool → List (Board Memory) → Prop
  | _, [] => True
  | carry, s :: rest => s.carry = carry ∧ Linked (run s).carry rest

/-- The carry that the last place leaves. -/
def carryAfter : Bool → List (Board Memory) → Bool
  | carry, [] => carry
  | _, s :: rest => carryAfter (run s).carry rest

variable {run} {b factor : Nat} {carry : Bool} {lhs rhs : Board Memory → Nat}
  {s : Board Memory} {rest places : List (Board Memory)}

/-- The equation of the first place, and that of the number made of the others. -/
theorem ofDigits_cons_eq {left right : List Nat} {l r out next : Nat} {incoming : Nat}
    (hfirst : l + b * next = r + incoming)
    (hrest : Nat.ofDigits b left + b ^ left.length * out = Nat.ofDigits b right + next) :
    Nat.ofDigits b (l :: left) + b ^ (left.length + 1) * out =
      Nat.ofDigits b (r :: right) + incoming := by
  have hscaled := congrArg (b * ·) hrest
  simp only [Nat.mul_add, ← Nat.mul_assoc] at hscaled
  rw [Nat.ofDigits_cons, Nat.ofDigits_cons, Nat.pow_succ']
  omega

/-- **From the least significant digit upwards.** -/
theorem Linked.ofDigits_eq (h : Linked run carry places)
    (hplace : ∀ s ∈ places, lhs s + b * (run s).carry.toNat = rhs s + s.carry.toNat) :
    Nat.ofDigits b (places.map lhs) + b ^ places.length * (carryAfter run carry places).toNat =
      Nat.ofDigits b (places.map rhs) + carry.toNat := by
  induction places generalizing carry with
  | nil => simp [carryAfter]
  | cons s rest ih =>
    obtain ⟨rfl, hrest⟩ := h
    have hothers := ih hrest fun s' hs' ↦ hplace s' (List.mem_cons_of_mem s hs')
    rw [← List.length_map lhs] at hothers
    have hall := ofDigits_cons_eq (hplace s List.mem_cons_self) hothers
    rwa [List.length_map] at hall

/-- The number made of the other places, and the equation of the last place. -/
theorem ofDigits_concat_eq {left right : List Nat} {l r out next : Nat} {incoming : Nat}
    (hlength : left.length = right.length)
    (hfirst : factor * l + next = r + b * incoming)
    (hrest : factor * Nat.ofDigits b left + out =
      Nat.ofDigits b right + b ^ right.length * next) :
    factor * Nat.ofDigits b (left ++ [l]) + out =
      Nat.ofDigits b (right ++ [r]) + b ^ (right.length + 1) * incoming := by
  have hscaled := congrArg (b ^ right.length * ·) hfirst
  simp only [Nat.mul_add] at hscaled
  rw [Nat.ofDigits_append, Nat.ofDigits_append, hlength, Nat.ofDigits_singleton,
    Nat.ofDigits_singleton, Nat.mul_add, Nat.pow_succ, Nat.mul_left_comm factor,
    Nat.mul_assoc _ b incoming]
  omega

/-- **From the most significant digit downwards.** -/
theorem Linked.ofDigits_reverse_eq (h : Linked run carry places)
    (hplace : ∀ s ∈ places, factor * lhs s + (run s).carry.toNat = rhs s + b * s.carry.toNat) :
    factor * Nat.ofDigits b (places.map lhs).reverse + (carryAfter run carry places).toNat =
      Nat.ofDigits b (places.map rhs).reverse + b ^ places.length * carry.toNat := by
  induction places generalizing carry with
  | nil => simp [carryAfter]
  | cons s rest ih =>
    obtain ⟨rfl, hrest⟩ := h
    have hothers := ih hrest fun s' hs' ↦ hplace s' (List.mem_cons_of_mem s hs')
    have hlength : rest.length = (rest.map rhs).reverse.length := by simp
    rw [hlength] at hothers
    rw [List.map_cons, List.map_cons, List.reverse_cons, List.reverse_cons, List.length_cons,
      hlength]
    exact ofDigits_concat_eq (by simp) (hplace s List.mem_cons_self) hothers

/-- Numbers are added digit by digit, if the digits may be of any size. -/
theorem ofDigits_map_add :
    Nat.ofDigits b (places.map fun s ↦ lhs s + rhs s) =
      Nat.ofDigits b (places.map lhs) + Nat.ofDigits b (places.map rhs) := by
  rw [Nat.ofDigits_add_ofDigits_eq_ofDigits_zipWith_of_length_eq (by simp), List.zipWith_map,
    List.zipWith_self]

end Linked

/-! ### A number with its last carry -/

/-- A number below `m` with a carry before it is a number that wraps around at `m`. -/
theorem eq_mod_of_carry {r m t : Nat} {carry : Bool} (hr : r < m) (h : r + m * carry.toNat = t) :
    r = t % m ∧ (carry = true ↔ m ≤ t) := by
  cases carry with
  | false =>
    obtain rfl : r = t := by simpa using h
    simp [Nat.mod_eq_of_lt hr, hr]
  | true =>
    obtain rfl : r + m = t := by simpa using h
    simp [Nat.mod_eq_of_lt hr]

/-- With a borrow before it, it is a difference that wraps around. -/
theorem eq_emod_of_borrow {r m x y : Nat} {borrow : Bool} (hr : r < m)
    (h : x + m * borrow.toNat = r + y) :
    (r : Int) = ((x : Int) - y) % m ∧ (borrow = true ↔ x < y) := by
  have hwrapped : (r : Int) = ((x : Int) - y) % m := by
    have hdifference : (r : Int) = x - y + m * borrow.toNat := by omega
    rw [← Int.add_mul_emod_self_left _ _ (borrow.toNat : Int), ← hdifference,
      Int.emod_eq_of_lt (by omega) (by omega)]
  refine ⟨hwrapped, ?_⟩
  cases borrow with
  | false =>
    simp only [Bool.toNat_false] at h
    simp
    omega
  | true =>
    simp only [Bool.toNat_true] at h
    simp
    omega

/-! ### One place -/

variable (s : Board Memory) {op : AluOp}

/-- What stands at the program counter. -/
def instruction : Meaning := s.bus.meaning s.cpu.regs.pc

/-- The board once one instruction has been executed. -/
def executed : Board Memory := s.executeOne.2

/-- The instruction is executed without a fault. -/
def Succeeds : Prop := ∃ t, s.executeOne = (.ok t, s.executed)

/-- An operation of the accumulator stands at the program counter. -/
def Combines (op : AluOp) (s : Board Memory) : Prop :=
  s.instruction = .primary (.aluImmediate op) ∨ ∃ src, s.instruction = .primary (.alu op src)

/-- The byte that the accumulator is combined with. -/
def operand : UInt8 :=
  match s.instruction with
  | .primary (.alu _ src) => (s.readOperand src).1
  | _ => s.bus.get (s.cpu.regs.pc + 1)

/-- Where the result is left: where the bits are moved, and otherwise in the accumulator. -/
def target : Operand :=
  match s.instruction with
  | .bit (.shift _ dst) => dst
  | _ => .a

/-- The byte of a place, before it is worked on. -/
def before : UInt8 := (s.readOperand s.target).1

/-- The byte of a place, once it has been worked on. -/
def after : UInt8 := (s.executed.readOperand s.target).1

variable {s}

/-- **An instruction that means something is executed.** -/
theorem executeOne_of_meaning {m : Meaning} (h : s.instruction = m) (hm : m ≠ .nothing) :
    ∃ t, s.executeOne = (.ok t, (s.carryOut m).elapse t) := by
  have hopcode : s.bus.get s.cpu.regs.pc = s.fetch.1 := rfl
  unfold instruction Memory.meaning at h
  rw [hopcode] at h
  cases hdecoded : Opcode.decode s.fetch.1 with
  | instruction i =>
    rw [hdecoded] at h
    rw [executeOne_of_instruction s hdecoded, ← h]
    exact ⟨_, rfl⟩
  | extended =>
    rw [hdecoded] at h
    rw [executeOne_of_extended s hdecoded, ← h]
    exact ⟨_, rfl⟩
  | again | hole =>
    rw [hdecoded] at h
    exact absurd h.symm hm

/-- **What stands at the program counter is executed**, without a fault, and its cost is charged. -/
theorem executed_eq_carryOut {m : Meaning} (h : s.instruction = m) (hm : m ≠ .nothing) :
    s.Succeeds ∧ ∃ t, s.executed = (s.carryOut m).elapse t := by
  obtain ⟨t, hone⟩ := executeOne_of_meaning h hm
  have hexecuted : s.executed = (s.carryOut m).elapse t := congrArg Prod.snd hone
  exact ⟨⟨t, by rw [hone, hexecuted]⟩, t, hexecuted⟩

/-- **The accumulator is combined with the operand.** -/
theorem Combines.executed (h : s.Combines op) :
    s.Succeeds ∧ (s.after, s.executed.cpu.regs.flags) =
      Alu.apply op s.before s.operand s.cpu.regs.flags := by
  rcases h with h | ⟨src, h⟩
  · obtain ⟨hone, t, hexecuted⟩ := executed_eq_carryOut h (by simp)
    refine ⟨hone, ?_⟩
    simp only [after, before, target, operand, h, hexecuted]
    rfl
  · obtain ⟨hone, t, hexecuted⟩ := executed_eq_carryOut h (by simp)
    refine ⟨hone, ?_⟩
    simp only [after, before, target, operand, h, hexecuted]
    cases src <;> rfl

/-- A board at which some bytes are about to be executed. -/
def standingAt (program : List UInt8) (a : UInt8) (c : Bool) : Board Memory where
  cpu := { Cpu.powerOn .fatal with
    regs := { Cpu.initialRegisters with a, flags := .of false false false c, pc := 0 } }
  bus := (Memory.fill 0).overwrite 0 program

/-- The carry of the board is the one it has been given. -/
theorem carry_standingAt (program : List UInt8) (a : UInt8) (c : Bool) :
    (standingAt program a c).carry = c := Flags.c_of ..

end Board

end GameBoy
