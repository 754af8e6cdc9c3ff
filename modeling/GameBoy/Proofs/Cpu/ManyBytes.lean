import GameBoy.Proofs.Cpu.Arithmetic
import GameBoy.Proofs.Cpu.Digits

/-!
# Numbers of many bytes

Addition, subtraction, doubling and halving of numbers that are longer than a byte. At the first
place an instruction is executed that pays no heed to the carry, and at every other place one that
takes in what the place before has left (`Board.Chain`). `chain_arithmetic` says what the bytes that
are left at the places amount to, and what the last carry says.

A sum, a difference and a double begin with the least significant byte, and a half with the most
significant one. Whatever the length is, each of them comes from one equation about a single byte,
for the first place and for the others: `Combines.sum`, `Combines.difference`, `Moves.double` and
`Moves.half`.
-/

namespace GameBoy

namespace Board

variable {s : Board Memory} {op : AluOp} {move : Shift}

/-! ### Movements of bits -/

/-- A movement of bits stands at the program counter. -/
def Moves (move : Shift) (s : Board Memory) : Prop :=
  ∃ dst, s.instruction = .bit (.shift move dst)

/-- An operand reads the same at any time. -/
theorem fst_readOperand_elapse (dst : Operand) (t : Nat) :
    ((s.elapse t).readOperand dst).1 = (s.readOperand dst).1 := by
  cases dst <;> rfl

/-- An operand that is written reads as what was written. -/
theorem fst_readOperand_writeOperand (dst : Operand) (v : UInt8) :
    ((s.writeOperand dst v).readOperand dst).1 = v := by
  cases dst with
  | atHL => exact s.bus.get_set_self _ v
  | _ => rfl

/-- **The bits of the target are moved.** -/
theorem Moves.executed (h : s.Moves move) :
    s.Succeeds ∧ (s.after, s.executed.carry) = Alu.shift move s.before s.carry := by
  obtain ⟨dst, h⟩ := h
  obtain ⟨hone, t, hexecuted⟩ := executed_eq_carryOut h (by simp)
  refine ⟨hone, ?_⟩
  simp only [after, before, target, carry, h, hexecuted, carryOut, executeBit, modify,
    snd_readOperand, fst_readOperand_elapse, fst_readOperand_writeOperand]
  cases dst <;> exact Prod.ext rfl (Flags.c_of ..)

/-! ### The equation of a place -/

theorem Combines.sum (h : s.Combines op) (hop : op = .add ∨ op = .adc) :
    s.after.toNat + 256 * s.executed.carry.toNat =
      s.before.toNat + s.operand.toNat + (op = .adc && s.carry).toNat := by
  obtain ⟨-, hcombined⟩ := h.executed
  obtain ⟨hafter, hflags⟩ := Prod.mk.inj hcombined
  rw [hafter, carry, hflags]
  rcases hop with rfl | rfl
  · exact Alu.add_eq _ _ false
  · exact Alu.add_eq _ _ s.carry

theorem Combines.difference (h : s.Combines op) (hop : op = .sub ∨ op = .sbc) :
    s.before.toNat + 256 * s.executed.carry.toNat =
      s.after.toNat + s.operand.toNat + (op = .sbc && s.carry).toNat := by
  obtain ⟨-, hcombined⟩ := h.executed
  obtain ⟨hafter, hflags⟩ := Prod.mk.inj hcombined
  rw [hafter, carry, hflags]
  rcases hop with rfl | rfl
  · exact (Alu.sub_eq _ _ false).symm
  · exact (Alu.sub_eq _ _ s.carry).symm

theorem Moves.double (h : s.Moves move) (hmove : move ∈ [.rotate .rlc, .rotate .rl, .sla]) :
    s.after.toNat + 256 * s.executed.carry.toNat =
      2 * s.before.toNat + (Alu.incoming move s.before s.carry).toNat := by
  obtain ⟨-, hmoved⟩ := h.executed
  obtain ⟨hafter, hcarry⟩ := Prod.mk.inj hmoved
  rw [hafter, hcarry]
  exact Alu.shift_left_eq _ _ hmove

theorem Moves.half (h : s.Moves move) (hmove : move ∈ [.rotate .rrc, .rotate .rr, .sra, .srl]) :
    2 * s.after.toNat + s.executed.carry.toNat =
      s.before.toNat + 256 * (Alu.incoming move s.before s.carry).toNat := by
  obtain ⟨-, hmoved⟩ := h.executed
  obtain ⟨hafter, hcarry⟩ := Prod.mk.inj hmoved
  rw [hafter, hcarry]
  exact Alu.shift_right_eq _ _ hmove

/-! ### Chains -/

/-- **A chain of instructions**: at the first place one of the first kind is executed, and at every
other place one of the second kind, with the carry that the place before has left. -/
inductive Chain (first next : Board Memory → Prop) : List (Board Memory) → Prop
  /-- The first place, and the others. -/
  | intro {s : Board Memory} {rest : List (Board Memory)} : first s → (∀ s' ∈ rest, next s') →
      Linked executed s.executed.carry rest → Chain first next (s :: rest)

/-- The number that bytes stand for, the least significant byte first. -/
def number (bytes : List UInt8) : Nat := Nat.ofDigits 256 (bytes.map UInt8.toNat)

/-- The same number in two's complement: the upper half of the numbers of that many bytes is
negative. -/
def signedNumber (bytes : List UInt8) : Int := (number bytes : Int).bmod (256 ^ bytes.length)

/-- The carry that the last instruction of a chain leaves. -/
def lastCarry (places : List (Board Memory)) : Bool := carryAfter executed false places

variable {first next : Board Memory → Prop} {places : List (Board Memory)}
  {lhs rhs : Board Memory → Nat} {enters : Board Memory → Bool} {b : Nat}

/-- A chain has a place at least. -/
theorem Chain.length_pos (h : Chain first next places) : 0 < places.length := by
  obtain ⟨-, -, -⟩ := h
  simp

theorem Chain.succeeds (h : Chain first next places) (hfirst : ∀ s, first s → s.Succeeds)
    (hnext : ∀ s, next s → s.Succeeds) : ∀ s ∈ places, s.Succeeds := by
  obtain ⟨hhead, hrest, -⟩ := h
  intro s hs
  rcases List.mem_cons.mp hs with rfl | hmem
  · exact hfirst s hhead
  · exact hnext s (hrest s hmem)

/-- **What a chain computes that begins with the least significant byte**, if nothing comes in at
the first place. -/
theorem Chain.ofDigits_eq (h : Chain first next places)
    (hfirst : ∀ s, first s → lhs s + b * s.executed.carry.toNat = rhs s)
    (hnext : ∀ s, next s → lhs s + b * s.executed.carry.toNat = rhs s + s.carry.toNat) :
    Nat.ofDigits b (places.map lhs) + b ^ places.length * (lastCarry places).toNat =
      Nat.ofDigits b (places.map rhs) := by
  obtain @⟨s, rest, hhead, hrest, hlinked⟩ := h
  have hzero : lhs s + b * s.executed.carry.toNat = rhs s + 0 := hfirst s hhead
  have hothers := hlinked.ofDigits_eq fun s hs ↦ hnext s (hrest s hs)
  rw [← List.length_map lhs] at hothers
  have hall := ofDigits_cons_eq hzero hothers
  rwa [List.length_map] at hall

/-- **What a chain computes that begins with the most significant byte.** -/
theorem Chain.ofDigits_reverse_eq (h : Chain first next places)
    (hfirst : ∀ s, first s → 2 * lhs s + s.executed.carry.toNat = rhs s + b * (enters s).toNat)
    (hnext : ∀ s, next s → 2 * lhs s + s.executed.carry.toNat = rhs s + b * s.carry.toNat) :
    ∃ s ∈ places.head?,
      2 * Nat.ofDigits b (places.map lhs).reverse + (lastCarry places).toNat =
        Nat.ofDigits b (places.map rhs).reverse + b ^ places.length * (enters s).toNat := by
  obtain @⟨s, rest, hhead, hrest, hlinked⟩ := h
  have hothers := hlinked.ofDigits_reverse_eq fun s hs ↦ hnext s (hrest s hs)
  have hlength : rest.length = (rest.map rhs).reverse.length := by simp
  refine ⟨s, rfl, ?_⟩
  rw [hlength] at hothers
  rw [List.map_cons, List.map_cons, List.reverse_cons, List.reverse_cons, List.length_cons, hlength]
  exact ofDigits_concat_eq (by simp) (hfirst s hhead) hothers

/-! ### Numbers -/

theorem number_map (f : Board Memory → UInt8) :
    number (places.map f) = Nat.ofDigits 256 (places.map fun s ↦ (f s).toNat) := by
  rw [number, List.map_map]
  rfl

theorem number_reverse_map (f : Board Memory → UInt8) :
    number (places.map f).reverse = Nat.ofDigits 256 (places.map fun s ↦ (f s).toNat).reverse := by
  rw [number, List.map_reverse, List.map_map]
  rfl

theorem number_lt (bytes : List UInt8) : number bytes < 256 ^ bytes.length := by
  have hlt : ∀ d ∈ bytes.map UInt8.toNat, d < 256 := by
    intro d hd
    obtain ⟨v, -, rfl⟩ := List.mem_map.mp hd
    exact v.toNat_lt
  simpa [number] using Nat.ofDigits_lt_base_pow_length (by decide) hlt

theorem number_places_lt (f : Board Memory → UInt8) :
    number (places.map f) < 256 ^ places.length := by
  simpa using number_lt (places.map f)

theorem number_reverse_places_lt (f : Board Memory → UInt8) :
    number (places.map f).reverse < 256 ^ places.length := by
  simpa using number_lt (places.map f).reverse

/-- The top bit of a number is the top bit of its most significant byte. -/
theorem testBit_of_mem_getLast? {bytes : List UInt8} {v : UInt8} (h : v ∈ bytes.getLast?) :
    v.toNat.testBit 7 = decide (256 ^ bytes.length ≤ 2 * number bytes) := by
  obtain ⟨low, rfl⟩ := List.getLast?_eq_some_iff.mp h
  have hlow := number_lt low
  have hv := v.toNat_lt
  have hnumber : number (low ++ [v]) = number low + 256 ^ low.length * v.toNat := by
    simp [number, Nat.ofDigits_append]
  rw [hnumber, List.length_append, List.length_singleton, Nat.pow_succ,
    Nat.testBit_eq_decide_div_mod_eq, decide_eq_decide]
  generalize 256 ^ low.length = m at hlow
  by_cases hhigh : 128 ≤ v.toNat
  · have hscaled := Nat.mul_le_mul_left m hhigh
    omega
  · have hscaled := Nat.mul_le_mul_left m (show v.toNat ≤ 127 by omega)
    omega

/-! ### A number with its last carry -/

/-- The bit that leaves a number which is doubled is its top bit. -/
theorem eq_mod_of_doubled {r x i : Nat} {out : Bool} (hr : r < 2 ^ (i + 1)) (hx : x < 2 ^ (i + 1))
    (h : r + 2 ^ (i + 1) * out.toNat = 2 * x) :
    r = 2 * x % 2 ^ (i + 1) ∧ out = x.testBit i := by
  obtain ⟨hmod, hout⟩ := eq_mod_of_carry hr h
  refine ⟨hmod, Bool.eq_iff_iff.mpr (hout.trans ?_)⟩
  rw [Nat.pow_succ'] at hx ⊢
  have hquotient : x / 2 ^ i < 2 := Nat.div_lt_of_lt_mul (by omega)
  rw [Nat.testBit_eq_decide_div_mod_eq, decide_eq_true_iff, Nat.mod_eq_of_lt hquotient]
  rw [Nat.mul_le_mul_left_iff (by decide), ← Nat.one_le_div_iff (Nat.two_pow_pos i)]
  omega

/-- A number with another bit behind it is halved, and rounded down. -/
theorem eq_half {r x : Nat} {out : Bool} (h : 2 * r + out.toNat = x) :
    r = x / 2 ∧ out.toNat = x % 2 := by
  have hout := out.toNat_le
  omega

theorem bmod_eq_ite {x m : Nat} (hx : x < m) :
    (x : Int).bmod m = if 2 * x < m then (x : Int) else x - m := by
  have hself : (x : Int) % m = x := Int.emod_eq_of_lt (by omega) (by omega)
  rw [Int.bmod_def, hself]
  have hupper : (x : Int) < ((m : Int) + 1) / 2 ↔ 2 * x < m := by omega
  simp only [hupper]

/-- In two's complement as well, if the sign comes in at the top. -/
theorem bmod_eq_half {r x m : Nat} {out : Bool} (hm : 2 ∣ m) (hr : r < m) (hx : x < m)
    (h : 2 * r + out.toNat = x + m * (decide (m ≤ 2 * x)).toNat) :
    (r : Int).bmod m = (x : Int).bmod m / 2 ∧ out.toNat = x % 2 := by
  have hout := out.toNat_le
  rw [bmod_eq_ite hr, bmod_eq_ite hx]
  by_cases hnegative : m ≤ 2 * x
  · simp only [hnegative, decide_true, Bool.toNat_true, Nat.mul_one] at h
    rw [if_neg (by omega), if_neg (by omega)]
    omega
  · simp only [hnegative, decide_false, Bool.toNat_false, Nat.mul_zero, Nat.add_zero] at h
    rw [if_pos (by omega), if_pos (by omega)]
    omega

/-! ### What the chains compute -/

/-- **Sums.** -/
theorem Chain.sum (h : Chain (Combines .add) (Combines .adc) places) :
    number (places.map after) =
        (number (places.map before) + number (places.map operand)) % 256 ^ places.length ∧
      (lastCarry places = true ↔
        256 ^ places.length ≤ number (places.map before) + number (places.map operand)) := by
  refine eq_mod_of_carry (number_places_lt after) ?_
  simp only [number_map, ← ofDigits_map_add]
  exact h.ofDigits_eq (fun s hs ↦ hs.sum (.inl rfl)) fun s hs ↦ hs.sum (.inr rfl)

/-- **Differences.** -/
theorem Chain.difference (h : Chain (Combines .sub) (Combines .sbc) places) :
    (number (places.map after) : Int) =
        ((number (places.map before) : Int) - number (places.map operand)) %
          (256 ^ places.length : Nat) ∧
      (lastCarry places = true ↔
        number (places.map before) < number (places.map operand)) := by
  refine eq_emod_of_borrow (number_places_lt after) ?_
  simp only [number_map, ← ofDigits_map_add]
  exact h.ofDigits_eq (fun s hs ↦ hs.difference (.inl rfl)) fun s hs ↦ hs.difference (.inr rfl)

/-- **Twice a number.** -/
theorem Chain.double (h : Chain (Moves .sla) (Moves (.rotate .rl)) places) :
    number (places.map after) =
        2 * number (places.map before) % 256 ^ places.length ∧
      lastCarry places = (number (places.map before)).testBit (8 * places.length - 1) := by
  have hpower : 256 ^ places.length = 2 ^ (8 * places.length - 1 + 1) := by
    have hpositive := h.length_pos
    rw [show 256 = 2 ^ 8 from rfl, ← Nat.pow_mul, Nat.sub_add_cancel (by omega)]
  have hafter : number (places.map after) < 256 ^ places.length := number_places_lt after
  have hbefore : number (places.map before) < 256 ^ places.length := number_places_lt before
  rw [hpower] at hafter hbefore ⊢
  refine eq_mod_of_doubled hafter hbefore ?_
  rw [← hpower]
  simp only [number_map, Nat.mul_ofDigits, List.map_map]
  exact h.ofDigits_eq (fun s hs ↦ hs.double (by decide)) fun s hs ↦ hs.double (by decide)

/-- **Half a number.** -/
theorem Chain.half (h : Chain (Moves .srl) (Moves (.rotate .rr)) places) :
    number (places.map after).reverse = number (places.map before).reverse / 2 ∧
      (lastCarry places).toNat = number (places.map before).reverse % 2 := by
  refine eq_half ?_
  have hfirst (s : Board Memory) (hs : s.Moves .srl) :
      2 * s.after.toNat + s.executed.carry.toNat = s.before.toNat + 256 * false.toNat :=
    hs.half (by decide)
  obtain ⟨s, -, heq⟩ := h.ofDigits_reverse_eq hfirst fun s hs ↦ hs.half (by decide)
  rwa [← number_reverse_map, ← number_reverse_map] at heq

/-- **Half a number in two's complement.** -/
theorem Chain.signed_half (h : Chain (Moves .sra) (Moves (.rotate .rr)) places) :
    signedNumber (places.map after).reverse = signedNumber (places.map before).reverse / 2 ∧
      (lastCarry places).toNat = number (places.map before).reverse % 2 := by
  have hfirst (s : Board Memory) (hs : s.Moves .sra) :
      2 * s.after.toNat + s.executed.carry.toNat =
        s.before.toNat + 256 * (s.before.toNat.testBit 7).toNat :=
    hs.half (by decide)
  obtain ⟨s, hs, heq⟩ := h.ofDigits_reverse_eq hfirst fun s hs ↦ hs.half (by decide)
  have hlast : s.before ∈ (places.map before).reverse.getLast? := by
    simp [List.head?_map, Option.mem_def.mp hs]
  rw [testBit_of_mem_getLast? hlast, List.length_reverse, List.length_map, ← number_reverse_map,
    ← number_reverse_map] at heq
  simp only [signedNumber, List.length_reverse, List.length_map]
  have heven : 2 ∣ 256 ^ places.length := Dvd.dvd.pow (by decide) h.length_pos.ne'
  exact mod_cast bmod_eq_half heven (number_reverse_places_lt after)
    (number_reverse_places_lt before) heq

/-- **The carry flag chains operations on bytes to operations on numbers.** Whatever else is done
between two of the instructions, as long as the carry survives it, and wherever the bytes are:
addition and subtraction wrap around at the width of the numbers and leave a carry or a borrow
exactly if they do, a movement to the left doubles and leaves the top bit, and a movement to the
right halves, rounds down and leaves the lowest bit, with the sign or without it. Every instruction
of the chain is executed without a fault. -/
theorem chain_arithmetic (places : List (Board Memory)) :
    (let n := places.length
      let x := number (places.map before)
      let y := number (places.map operand)
      let r := number (places.map after)
      (Chain (Combines .add) (Combines .adc) places → (∀ s ∈ places, s.Succeeds) ∧
        r = (x + y) % 256 ^ n ∧ (lastCarry places = true ↔ 256 ^ n ≤ x + y)) ∧
      (Chain (Combines .sub) (Combines .sbc) places → (∀ s ∈ places, s.Succeeds) ∧
        (r : Int) = ((x : Int) - y) % (256 ^ n : Nat) ∧ (lastCarry places = true ↔ x < y)) ∧
      (Chain (Moves .sla) (Moves (.rotate .rl)) places → (∀ s ∈ places, s.Succeeds) ∧
        r = 2 * x % 256 ^ n ∧ lastCarry places = x.testBit (8 * n - 1))) ∧
    -- These begin with the most significant byte.
    (let bytes := (places.map before).reverse
      let results := (places.map after).reverse
      (Chain (Moves .srl) (Moves (.rotate .rr)) places → (∀ s ∈ places, s.Succeeds) ∧
        number results = number bytes / 2 ∧
        (lastCarry places).toNat = number bytes % 2) ∧
      (Chain (Moves .sra) (Moves (.rotate .rr)) places → (∀ s ∈ places, s.Succeeds) ∧
        signedNumber results = signedNumber bytes / 2 ∧
        (lastCarry places).toNat = number bytes % 2)) := by
  have hcombine {op op' : AluOp} (h : Chain (Combines op) (Combines op') places) :
      ∀ s ∈ places, s.Succeeds := h.succeeds (fun _ hs ↦ hs.executed.1) fun _ hs ↦ hs.executed.1
  have hmove {move move' : Shift} (h : Chain (Moves move) (Moves move') places) :
      ∀ s ∈ places, s.Succeeds := h.succeeds (fun _ hs ↦ hs.executed.1) fun _ hs ↦ hs.executed.1
  refine ⟨⟨?_, ?_, ?_⟩, ?_, ?_⟩
  · exact fun h ↦ ⟨hcombine h, h.sum⟩
  · exact fun h ↦ ⟨hcombine h, h.difference⟩
  · exact fun h ↦ ⟨hmove h, h.double⟩
  · exact fun h ↦ ⟨hmove h, h.half⟩
  · exact fun h ↦ ⟨hmove h, h.signed_half⟩

/-- 0x80FF and 0x8001 are added. -/
def addition : List (Board Memory) :=
  [standingAt [0xC6, 0x01] 0xFF false, standingAt [0xCE, 0x80] 0x80 true]

/-- 0x8000 is subtracted from 0x00FF, with a borrow at the second byte. -/
def subtraction : List (Board Memory) :=
  [standingAt [0xD6, 0x00] 0xFF true, standingAt [0xDE, 0x80] 0x00 false]

/-- 0x80FF is doubled. -/
def doubling : List (Board Memory) :=
  [standingAt [0xCB, 0x27] 0xFF false, standingAt [0xCB, 0x17] 0x80 true]

/-- 0x80FF is halved. -/
def halving : List (Board Memory) :=
  [standingAt [0xCB, 0x3F] 0x80 false, standingAt [0xCB, 0x1F] 0xFF false]

/-- 0x80FF is halved, as a negative number. -/
def halvingSigned : List (Board Memory) :=
  [standingAt [0xCB, 0x2F] 0x80 true, standingAt [0xCB, 0x1F] 0xFF false]

theorem chain_arithmetic_of_two_bytes :
    (number (addition.map after) = (0x80FF + 0x8001) % 256 ^ 2 ∧ lastCarry addition = true) ∧
      ((number (subtraction.map after) : Int) = (0x00FF - 0x8000) % 256 ^ 2 ∧
        lastCarry subtraction = true) ∧
      (number (doubling.map after) = 2 * 0x80FF % 256 ^ 2 ∧ lastCarry doubling = true) ∧
      number (halving.map after).reverse = 0x80FF / 2 ∧
      signedNumber (halvingSigned.map after).reverse = signedNumber [0xFF, 0x80] / 2 := by
  have haddition : Chain (Combines .add) (Combines .adc) addition :=
    .intro (.inl rfl) (by simpa using .inl rfl) ⟨rfl, trivial⟩
  have hsubtraction : Chain (Combines .sub) (Combines .sbc) subtraction :=
    .intro (.inl rfl) (by simpa using .inl rfl) ⟨rfl, trivial⟩
  have hdoubling : Chain (Moves .sla) (Moves (.rotate .rl)) doubling :=
    .intro ⟨.a, rfl⟩ (by simpa using ⟨.a, rfl⟩) ⟨rfl, trivial⟩
  have hhalving : Chain (Moves .srl) (Moves (.rotate .rr)) halving :=
    .intro ⟨.a, rfl⟩ (by simpa using ⟨.a, rfl⟩) ⟨rfl, trivial⟩
  have hhalvingSigned : Chain (Moves .sra) (Moves (.rotate .rr)) halvingSigned :=
    .intro ⟨.a, rfl⟩ (by simpa using ⟨.a, rfl⟩) ⟨rfl, trivial⟩
  obtain ⟨-, hsum, hcarry⟩ := (chain_arithmetic addition).1.1 haddition
  obtain ⟨-, hdifference, hborrow⟩ := (chain_arithmetic subtraction).1.2.1 hsubtraction
  obtain ⟨-, hdouble, htop⟩ := (chain_arithmetic doubling).1.2.2 hdoubling
  obtain ⟨-, hhalf, -⟩ := (chain_arithmetic halving).2.1 hhalving
  obtain ⟨-, hsigned, -⟩ := (chain_arithmetic halvingSigned).2.2 hhalvingSigned
  have hover : 256 ^ 2 ≤ 0x80FF + 0x8001 := by decide
  have hunder : 0x00FF < 0x8000 := by decide
  exact ⟨⟨hsum, hcarry.mpr hover⟩, ⟨hdifference, hborrow.mpr hunder⟩, ⟨hdouble, htop⟩, hhalf,
    hsigned⟩

end Board

end GameBoy
