import GameBoy.Proofs.Cpu.Arithmetic
import GameBoy.Proofs.Cpu.Digits

/-!
# Decimal numbers

A byte can hold two decimal digits, one in each half (`IsDecimal`, `decimal`). Such bytes are added
and subtracted as if they were numbers to the base sixteen, and DAA corrects what is wrong with the
result. What it corrects depends on the result and on three flags that the operation has left.

For one byte, `Alu.decimalAdjust_add` and `Alu.decimalAdjust_sub` say that the correction is right:
the operation and the correction together are the operation on numbers to the base hundred, with the
carry flag as the digit behind. A sum and a difference of numbers of any length follow from that
alone (`Board.decimal_arithmetic`), as the carry that is left by DAA is the one that the next
operation takes in.
-/

namespace GameBoy

/-! ### Two decimal digits in a byte -/

/-- Both halves of a byte are decimal digits. -/
def IsDecimal (v : UInt8) : Prop := v.toNat / 16 ≤ 9 ∧ v.toNat % 16 ≤ 9

instance : DecidablePred IsDecimal := fun _ ↦ inferInstanceAs (Decidable (_ ∧ _))

/-- The number that two decimal digits stand for. -/
def decimal (v : UInt8) : Nat := 10 * (v.toNat / 16) + v.toNat % 16

theorem decimal_lt {v : UInt8} (h : IsDecimal v) : decimal v < 100 := by
  obtain ⟨hhigh, hlow⟩ := h
  unfold decimal
  omega

namespace Alu

/-! ### What is corrected -/

variable (a v : UInt8) (fs : Flags) (carry : Bool)

/-- Whether the upper digit is corrected. -/
def correctsHigh : Bool := fs.c || (!fs.n && decide (0x99 < a.toNat))

/-- Whether the lower digit is corrected. -/
def correctsLow : Bool := fs.h || (!fs.n && decide (9 < a.toNat % 16))

theorem toNat_decimalCorrection :
    (decimalCorrection a fs).toNat =
      96 * (correctsHigh a fs).toNat + 6 * (correctsLow a fs).toNat := by
  have hhigh : (a > 0x99) = (0x99 < a.toNat) := propext UInt8.lt_iff_toNat_lt
  have hlow : ((a &&& 0x0F) > 0x09) = (9 < a.toNat % 16) := by
    rw [← toNat_and_low]
    exact propext UInt8.lt_iff_toNat_lt
  simp only [decimalCorrection, correctsHigh, correctsLow, hhigh, hlow]
  cases fs.c || (!fs.n && decide (0x99 < a.toNat)) <;>
    cases fs.h || (!fs.n && decide (9 < a.toNat % 16)) <;> rfl

theorem c_decimalAdjust : (decimalAdjust a fs).2.c = correctsHigh a fs := by
  have hlow := (correctsLow a fs).toNat_le
  simp only [decimalAdjust, Flags.get_set, ge_iff_le, UInt8.le_iff_toNat_le,
    toNat_decimalCorrection]
  cases correctsHigh a fs with
  | false => simp; omega
  | true => simp

theorem toNat_decimalAdjust :
    (decimalAdjust a fs).1.toNat =
      (a.toNat + if fs.n then 256 - (decimalCorrection a fs).toNat
        else (decimalCorrection a fs).toNat) % 256 := by
  simp only [decimalAdjust]
  cases fs.n with
  | false => simp
  | true =>
    simp [UInt8.toNat_sub]
    omega

/-! ### Two digits -/

variable {a v}

theorem n_add : (add a v carry).2.n = false := Flags.n_of ..

theorem n_sub : (sub a v carry).2.n = true := Flags.n_of ..

/-- After a sum, the lower digit is corrected if the lower digits amount to more than nine. -/
theorem correctsLow_add (ha : IsDecimal a) (hv : IsDecimal v) :
    correctsLow (add a v carry).1 (add a v carry).2 =
      decide (9 < a.toNat % 16 + v.toNat % 16 + carry.toNat) := by
  have hcarry := carry.toNat_le
  obtain ⟨-, ha⟩ := ha
  obtain ⟨-, hv⟩ := hv
  rw [correctsLow, h_add, toNat_add, n_add, Bool.not_false, Bool.true_and, ← Bool.decide_or,
    decide_eq_decide]
  omega

/-- The upper digit is corrected if the sum exceeds the greatest pair of digits. -/
theorem correctsHigh_add :
    correctsHigh (add a v carry).1 (add a v carry).2 =
      decide (0x99 < a.toNat + v.toNat + carry.toNat) := by
  rw [correctsHigh, c_add, toNat_add, n_add, Bool.not_false, Bool.true_and, ← Bool.decide_or,
    decide_eq_decide]
  omega

/-- After a difference, the digits are corrected that have borrowed. -/
theorem correctsLow_sub :
    correctsLow (sub a v carry).1 (sub a v carry).2 =
      decide (a.toNat % 16 < v.toNat % 16 + carry.toNat) := by
  rw [correctsLow, h_sub, n_sub, Bool.not_true, Bool.false_and, Bool.or_false]

theorem correctsHigh_sub :
    correctsHigh (sub a v carry).1 (sub a v carry).2 =
      decide (a.toNat < v.toNat + carry.toNat) := by
  rw [correctsHigh, c_sub, n_sub, Bool.not_true, Bool.false_and, Bool.or_false]

/-- **A sum of two pairs of decimal digits** is adjusted to a pair of decimal digits and a carry. -/
theorem decimalAdjust_add (ha : IsDecimal a) (hv : IsDecimal v) :
    let adjusted := decimalAdjust (add a v carry).1 (add a v carry).2
    IsDecimal adjusted.1 ∧
      decimal adjusted.1 + 100 * adjusted.2.c.toNat = decimal a + decimal v + carry.toNat := by
  intro adjusted
  have hc : adjusted.2.c = decide (0x99 < a.toNat + v.toNat + carry.toNat) :=
    (c_decimalAdjust _ _).trans (correctsHigh_add carry)
  have hresult := toNat_decimalAdjust (add a v carry).1 (add a v carry).2
  rw [toNat_decimalCorrection, correctsHigh_add, correctsLow_add carry ha hv, toNat_add, n_add,
    if_neg (by simp), Nat.mod_add_mod] at hresult
  have hcarry := carry.toNat_le
  obtain ⟨hahigh, halow⟩ := ha
  obtain ⟨hvhigh, hvlow⟩ := hv
  unfold IsDecimal decimal
  rw [hresult, hc]
  by_cases hhigh : 0x99 < a.toNat + v.toNat + carry.toNat <;>
    by_cases hlow : 9 < a.toNat % 16 + v.toNat % 16 + carry.toNat <;>
    simp only [hhigh, hlow, decide_true, decide_false, Bool.toNat_true, Bool.toNat_false] <;>
    omega

/-- **So is a difference**, with a borrow in place of the carry. -/
theorem decimalAdjust_sub (ha : IsDecimal a) (hv : IsDecimal v) :
    let adjusted := decimalAdjust (sub a v carry).1 (sub a v carry).2
    IsDecimal adjusted.1 ∧
      decimal a + 100 * adjusted.2.c.toNat = decimal adjusted.1 + decimal v + carry.toNat := by
  intro adjusted
  have hc : adjusted.2.c = decide (a.toNat < v.toNat + carry.toNat) :=
    (c_decimalAdjust _ _).trans (correctsHigh_sub carry)
  have hresult := toNat_decimalAdjust (sub a v carry).1 (sub a v carry).2
  rw [toNat_decimalCorrection, correctsHigh_sub, correctsLow_sub, toNat_sub, n_sub,
    if_pos rfl, Nat.mod_add_mod] at hresult
  have hcarry := carry.toNat_le
  obtain ⟨hahigh, halow⟩ := ha
  obtain ⟨hvhigh, hvlow⟩ := hv
  unfold IsDecimal decimal
  rw [hresult, hc]
  by_cases hhigh : a.toNat < v.toNat + carry.toNat <;>
    by_cases hlow : a.toNat % 16 < v.toNat % 16 + carry.toNat <;>
    simp only [hhigh, hlow, decide_true, decide_false, Bool.toNat_true, Bool.toNat_false] <;>
    omega

end Alu

namespace Board

/-! ### One place -/

variable (s : Board Memory) {op : AluOp} {places : List (Board Memory)} {carry : Bool}

/-- The board once two instructions have been executed. -/
def adjusted : Board Memory := s.executed.executed

/-- The digits that two instructions leave in the accumulator. -/
def digits : UInt8 := s.adjusted.cpu.regs.a

/-- **A place of a decimal number**: the accumulator is combined with a byte and then adjusted, and
both bytes are pairs of decimal digits. -/
structure CombinesDecimals (op : AluOp) : Prop where
  /-- The accumulator is combined with a byte. -/
  combines : s.Combines op
  /-- The instruction behind it adjusts the accumulator. -/
  adjusts : s.executed.instruction = .primary .daa
  /-- The accumulator holds decimal digits. -/
  isDecimal_before : IsDecimal s.before
  /-- So does the other byte. -/
  isDecimal_operand : IsDecimal s.operand

variable {s}

/-- **The accumulator is adjusted.** -/
theorem executed_of_daa (h : s.instruction = .primary .daa) :
    s.Succeeds ∧ (s.executed.cpu.regs.a, s.executed.cpu.regs.flags) =
      Alu.decimalAdjust s.cpu.regs.a s.cpu.regs.flags := by
  obtain ⟨hone, t, hexecuted⟩ := executed_eq_carryOut h (by simp)
  refine ⟨hone, ?_⟩
  rw [hexecuted]
  rfl

/-- The result of an operation of the accumulator is left there. -/
theorem Combines.after_eq (h : s.Combines op) : s.after = s.executed.cpu.regs.a := by
  rcases h with h | ⟨src, h⟩
  · simp only [after, target, h]
    rfl
  · simp only [after, target, h]
    rfl

namespace CombinesDecimals

/-- **The accumulator is combined with the operand and adjusted.** -/
theorem adjusted_eq (h : s.CombinesDecimals op) :
    let combined := Alu.apply op s.before s.operand s.cpu.regs.flags
    (s.digits, s.adjusted.cpu.regs.flags) = Alu.decimalAdjust combined.1 combined.2 := by
  obtain ⟨-, hcombined⟩ := h.combines.executed
  obtain ⟨-, hadjusted⟩ := executed_of_daa h.adjusts
  rw [h.combines.after_eq] at hcombined
  rw [← hcombined]
  exact hadjusted

theorem succeeds (h : s.CombinesDecimals op) : s.Succeeds ∧ s.executed.Succeeds :=
  ⟨h.combines.executed.1, (executed_of_daa h.adjusts).1⟩

theorem sum (h : s.CombinesDecimals .adc) :
    IsDecimal s.digits ∧
      decimal s.digits + 100 * s.adjusted.carry.toNat =
        decimal s.before + decimal s.operand + s.carry.toNat := by
  obtain ⟨hdigits, hflags⟩ := Prod.mk.inj h.adjusted_eq
  rw [hdigits, carry, hflags]
  exact Alu.decimalAdjust_add s.carry h.isDecimal_before h.isDecimal_operand

theorem difference (h : s.CombinesDecimals .sbc) :
    IsDecimal s.digits ∧
      decimal s.before + 100 * s.adjusted.carry.toNat =
        decimal s.digits + decimal s.operand + s.carry.toNat := by
  obtain ⟨hdigits, hflags⟩ := Prod.mk.inj h.adjusted_eq
  rw [hdigits, carry, hflags]
  exact Alu.decimalAdjust_sub s.carry h.isDecimal_before h.isDecimal_operand

end CombinesDecimals

/-! ### Numbers -/

/-- The number that pairs of decimal digits stand for, the least significant pair first. -/
def decimalNumber (bytes : List UInt8) : Nat := Nat.ofDigits 100 (bytes.map decimal)

theorem decimalNumber_map (f : Board Memory → UInt8) :
    decimalNumber (places.map f) = Nat.ofDigits 100 (places.map fun s ↦ decimal (f s)) := by
  rw [decimalNumber, List.map_map]
  rfl

theorem decimalNumber_lt {f : Board Memory → UInt8} (h : ∀ s ∈ places, IsDecimal (f s)) :
    decimalNumber (places.map f) < 100 ^ places.length := by
  have hlt : ∀ d ∈ places.map fun s ↦ decimal (f s), d < 100 := by
    intro d hd
    obtain ⟨s, hs, rfl⟩ := List.mem_map.mp hd
    exact decimal_lt (h s hs)
  rw [decimalNumber_map]
  simpa using Nat.ofDigits_lt_base_pow_length (by decide) hlt

theorem Linked.decimal_sum (hlinked : Linked adjusted carry places)
    (h : ∀ s ∈ places, s.CombinesDecimals .adc) :
    let t := decimalNumber (places.map before) + decimalNumber (places.map operand) + carry.toNat
    decimalNumber (places.map digits) = t % 100 ^ places.length ∧
      (carryAfter adjusted carry places = true ↔ 100 ^ places.length ≤ t) := by
  refine eq_mod_of_carry (decimalNumber_lt fun s hs ↦ (h s hs).sum.1) ?_
  simp only [decimalNumber_map, ← ofDigits_map_add]
  exact hlinked.ofDigits_eq fun s hs ↦ (h s hs).sum.2

theorem Linked.decimal_difference (hlinked : Linked adjusted carry places)
    (h : ∀ s ∈ places, s.CombinesDecimals .sbc) :
    let x := decimalNumber (places.map before)
    let y := decimalNumber (places.map operand)
    (decimalNumber (places.map digits) : Int) =
        ((x : Int) - y - carry.toNat) % (100 ^ places.length : Nat) ∧
      (carryAfter adjusted carry places = true ↔ x < y + carry.toNat) := by
  intro x y
  have heq : x + 100 ^ places.length * (carryAfter adjusted carry places).toNat =
      decimalNumber (places.map digits) + (y + carry.toNat) := by
    simp only [x, y, decimalNumber_map, ← Nat.add_assoc, ← ofDigits_map_add]
    exact hlinked.ofDigits_eq fun s hs ↦ (h s hs).difference.2
  have hborrow := eq_emod_of_borrow (decimalNumber_lt fun s hs ↦ (h s hs).difference.1) heq
  rwa [Int.natCast_add, ← Int.sub_sub] at hborrow

/-- **Decimal arithmetic of numbers of any length.** At each place the accumulator is combined with
a byte, with the carry, and adjusted; the carry is handed on from one place to the next, and nothing
else. If the bytes are pairs of decimal digits, so are the results, and no instruction meets a fault.
A sum and a difference wrap around at the width of the numbers, and the last carry is set exactly if
they do. -/
theorem decimal_arithmetic (hlinked : Linked adjusted carry places) :
    let n := places.length
    let x := decimalNumber (places.map before)
    let y := decimalNumber (places.map operand)
    let r := decimalNumber (places.map digits)
    let last := carryAfter adjusted carry places
    ((∀ s ∈ places, s.CombinesDecimals .adc) →
        (∀ s ∈ places, s.Succeeds ∧ s.executed.Succeeds ∧ IsDecimal s.digits) ∧
        r = (x + y + carry.toNat) % 100 ^ n ∧ (last = true ↔ 100 ^ n ≤ x + y + carry.toNat)) ∧
      ((∀ s ∈ places, s.CombinesDecimals .sbc) →
        (∀ s ∈ places, s.Succeeds ∧ s.executed.Succeeds ∧ IsDecimal s.digits) ∧
        (r : Int) = ((x : Int) - y - carry.toNat) % (100 ^ n : Nat) ∧
        (last = true ↔ x < y + carry.toNat)) := by
  refine ⟨fun h ↦ ⟨fun s hs ↦ ?_, hlinked.decimal_sum h⟩,
    fun h ↦ ⟨fun s hs ↦ ?_, hlinked.decimal_difference h⟩⟩
  · exact ⟨(h s hs).succeeds.1, (h s hs).succeeds.2, (h s hs).sum.1⟩
  · exact ⟨(h s hs).succeeds.1, (h s hs).succeeds.2, (h s hs).difference.1⟩

/-- 9850 and 150 and a carry are added. -/
def decimalAddition : List (Board Memory) :=
  [standingAt [0xCE, 0x50, 0x27] 0x50 true, standingAt [0xCE, 0x01, 0x27] 0x98 true]

/-- One is subtracted from zero, in four digits. -/
def decimalSubtraction : List (Board Memory) :=
  [standingAt [0xDE, 0x01, 0x27] 0x00 false, standingAt [0xDE, 0x00, 0x27] 0x00 true]

theorem decimal_arithmetic_of_four_digits :
    (decimalNumber (decimalAddition.map digits) = (9850 + 150 + 1) % 100 ^ 2 ∧
        carryAfter adjusted true decimalAddition = true) ∧
      ((decimalNumber (decimalSubtraction.map digits) : Int) = (0 - 1 - 0) % (100 ^ 2 : Nat) ∧
        carryAfter adjusted false decimalSubtraction = true) := by
  have hadd : ∀ s ∈ decimalAddition, s.CombinesDecimals .adc := by
    simpa [decimalAddition] using
      ⟨⟨.inl rfl, rfl, by decide, by decide⟩, ⟨.inl rfl, rfl, by decide, by decide⟩⟩
  have hsub : ∀ s ∈ decimalSubtraction, s.CombinesDecimals .sbc := by
    simpa [decimalSubtraction] using
      ⟨⟨.inl rfl, rfl, by decide, by decide⟩, ⟨.inl rfl, rfl, by decide, by decide⟩⟩
  have haddition : Linked adjusted true decimalAddition := ⟨rfl, rfl, trivial⟩
  have hsubtraction : Linked adjusted false decimalSubtraction := ⟨rfl, rfl, trivial⟩
  obtain ⟨-, hsum, hcarry⟩ := (decimal_arithmetic haddition).1 hadd
  obtain ⟨-, hdifference, hborrow⟩ := (decimal_arithmetic hsubtraction).2 hsub
  have hover : 100 ^ 2 ≤ 9850 + 150 + 1 := by decide
  have hunder : 0 < 1 + 0 := by decide
  exact ⟨⟨hsum, hcarry.mpr hover⟩, hdifference, hborrow.mpr hunder⟩

end Board

end GameBoy
