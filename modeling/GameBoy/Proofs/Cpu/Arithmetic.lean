import GameBoy.Cpu.Alu

/-!
# Arithmetic of bytes as arithmetic of numbers

What the operations on bytes do, said of the numbers that the bytes stand for. A sum and a
difference are told by one equation each, in which the carry is the digit behind the result:
`add_eq` and `sub_eq`. A movement of bits is a multiplication or a division by two with one bit that
comes in and one that goes out: `shift_left_eq` and `shift_right_eq`.

The flags are found by comparing widened operands. As comparisons of numbers they are `c_add` and
`c_sub`, and for the lower halves `h_add` and `h_sub`.
-/

namespace GameBoy.Alu

theorem toNat_carryIn (carry : Bool) : (carryIn carry).toNat = carry.toNat := by
  cases carry <;> rfl

/-- The lower half of a byte, as a number. -/
theorem toNat_and_low (v : UInt8) : (v &&& 0x0F).toNat = v.toNat % 16 := by
  rw [UInt8.toNat_and]
  exact Nat.and_two_pow_sub_one_eq_mod v.toNat 4

variable (a v : UInt8) (carry : Bool)

/-! ### Sums -/

/-- A sum wraps around at the width of a byte. -/
theorem toNat_add : (add a v carry).1.toNat = (a.toNat + v.toNat + carry.toNat) % 256 := by
  simp only [add, UInt8.toNat_add, toNat_carryIn]
  omega

/-- A sum that no byte can hold leaves a carry. -/
theorem c_add : (add a v carry).2.c = decide (255 < a.toNat + v.toNat + carry.toNat) := by
  have ha := a.toNat_lt
  have hv := v.toNat_lt
  have hcarry := carry.toNat_le
  simp only [add, Flags.c_of, decide_eq_decide, gt_iff_lt, UInt16.lt_iff_toNat_lt,
    UInt16.toNat_add, UInt8.toNat_toUInt16, UInt16.reduceToNat, toNat_carryIn]
  omega

/-- So does a sum of lower halves that no half can hold. -/
theorem h_add :
    (add a v carry).2.h = decide (15 < a.toNat % 16 + v.toNat % 16 + carry.toNat) := by
  have hcarry := carry.toNat_le
  simp only [add, Flags.h_of, decide_eq_decide, gt_iff_lt, UInt8.lt_iff_toNat_lt, UInt8.toNat_add,
    toNat_and_low, UInt8.reduceToNat, toNat_carryIn]
  omega

/-- **A sum, with its carry in front**, is the sum of the operands and the carry that came in. -/
theorem add_eq :
    (add a v carry).1.toNat + 256 * (add a v carry).2.c.toNat =
      a.toNat + v.toNat + carry.toNat := by
  have ha := a.toNat_lt
  have hv := v.toNat_lt
  have hcarry := carry.toNat_le
  rw [toNat_add, c_add]
  by_cases hover : 255 < a.toNat + v.toNat + carry.toNat
  · simp only [hover, decide_true, Bool.toNat_true]
    omega
  · simp only [hover, decide_false, Bool.toNat_false]
    omega

/-! ### Differences -/

/-- So does a difference. -/
theorem toNat_sub :
    (sub a v carry).1.toNat = (a.toNat + 512 - v.toNat - carry.toNat) % 256 := by
  have ha := a.toNat_lt
  have hv := v.toNat_lt
  have hcarry := carry.toNat_le
  simp only [sub, UInt8.toNat_sub, toNat_carryIn]
  omega

/-- A difference that is negative leaves a borrow. -/
theorem c_sub : (sub a v carry).2.c = decide (a.toNat < v.toNat + carry.toNat) := by
  have hv := v.toNat_lt
  have hcarry := carry.toNat_le
  simp only [sub, Flags.c_of, decide_eq_decide, UInt16.lt_iff_toNat_lt, UInt16.toNat_add,
    UInt8.toNat_toUInt16, toNat_carryIn]
  omega

/-- So does a negative difference of lower halves. -/
theorem h_sub :
    (sub a v carry).2.h = decide (a.toNat % 16 < v.toNat % 16 + carry.toNat) := by
  have hcarry := carry.toNat_le
  simp only [sub, Flags.h_of, decide_eq_decide, UInt8.lt_iff_toNat_lt, UInt8.toNat_add,
    toNat_and_low, toNat_carryIn]
  omega

/-- **A difference, with its borrow repaid**, is the first operand less the second one and the borrow
that came in. -/
theorem sub_eq :
    (sub a v carry).1.toNat + v.toNat + carry.toNat =
      a.toNat + 256 * (sub a v carry).2.c.toNat := by
  have ha := a.toNat_lt
  have hv := v.toNat_lt
  have hcarry := carry.toNat_le
  rw [toNat_sub, c_sub]
  by_cases hunder : a.toNat < v.toNat + carry.toNat
  · simp only [hunder, decide_true, Bool.toNat_true]
    omega
  · simp only [hunder, decide_false, Bool.toNat_false]
    omega

/-! ### Movements of bits -/

/-- The bit that comes in when a byte is moved by one place. -/
def incoming (op : Shift) (v : UInt8) (carry : Bool) : Bool :=
  match op with
  | .rotate .rlc => v.toNat.testBit 7
  | .rotate .rrc => v.toNat.testBit 0
  | .rotate .rl | .rotate .rr => carry
  | .sra => v.toNat.testBit 7
  | .sla | .swap | .srl => false

/-- **A movement to the left**, with the bit that leaves in front, doubles a byte and adds the bit
that comes in. -/
theorem shift_left_eq {op : Shift} (hop : op ∈ [.rotate .rlc, .rotate .rl, .sla]) :
    (shift op v carry).1.toNat + 256 * (shift op v carry).2.toNat =
      2 * v.toNat + (incoming op v carry).toNat := by
  have hbyte := byte_all (P := fun v ↦ ∀ op ∈ [Shift.rotate .rlc, .rotate .rl, .sla], ∀ carry,
    (shift op v carry).1.toNat + 256 * (shift op v carry).2.toNat =
      2 * v.toNat + (incoming op v carry).toNat) (by decide +kernel) v
  exact hbyte op hop carry

/-- **A movement to the right**, with the bit that leaves behind, halves a byte with the bit that
comes in before it. -/
theorem shift_right_eq {op : Shift} (hop : op ∈ [.rotate .rrc, .rotate .rr, .sra, .srl]) :
    2 * (shift op v carry).1.toNat + (shift op v carry).2.toNat =
      v.toNat + 256 * (incoming op v carry).toNat := by
  have hbyte := byte_all (P := fun v ↦ ∀ op ∈ [Shift.rotate .rrc, .rotate .rr, .sra, .srl], ∀ carry,
    2 * (shift op v carry).1.toNat + (shift op v carry).2.toNat =
      v.toNat + 256 * (incoming op v carry).toNat) (by decide +kernel) v
  exact hbyte op hop carry

end GameBoy.Alu
