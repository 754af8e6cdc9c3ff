/-!
# Byte memory

A 64 KiB memory as a persistent value. The bytes sit at the leaves of a perfect binary tree, so a
write copies one path of sixteen nodes and shares the rest, and a memory filled with one byte is
sixteen nodes in all.

## What the rest of the library may rely on

Nothing outside this module looks at the tree. A memory is what `Memory.get` says it is:
`Memory.ext` makes two memories with the same bytes equal, `Memory.get_set`, `Memory.get_fill` and
`Memory.get_ofFn` say what each way of building one does to its bytes.

Positions are read from the least significant bit upwards: the root separates even positions from
odd ones. That choice keeps the arithmetic to halving and parity, and no statement depends on it.
-/

namespace GameBoy

variable {α : Type}

/-- A perfect binary tree of depth `n`, with one value for each position below `Tree.size n`. -/
inductive Tree (α : Type) : Nat → Type where
  /-- The only position of a tree of depth zero. -/
  | leaf (value : α) : Tree α 0
  /-- The even and the odd positions of a deeper tree. -/
  | node {n : Nat} (even odd : Tree α n) : Tree α (n + 1)

namespace Tree

/-- The number of positions of a tree of a depth. -/
def size : (depth : Nat) → Nat
  | 0 => 1
  | n + 1 => 2 * size n

/-! ### Building, reading and writing -/

/-- The tree that holds one value everywhere. Both halves of a node are the same object. -/
def replicate : (n : Nat) → α → Tree α n
  | 0, v => .leaf v
  | n + 1, v =>
    let half := replicate n v
    .node half half

/-- The tree whose position `i` holds `f (start + stride * i)`. -/
def ofFnFrom (f : Nat → α) : (n stride start : Nat) → Tree α n
  | 0, _, start => .leaf (f start)
  | n + 1, stride, start =>
    .node (ofFnFrom f n (2 * stride) start) (ofFnFrom f n (2 * stride) (start + stride))

/-- The value at position `i`, taken modulo the number of positions. -/
def get : {n : Nat} → Tree α n → Nat → α
  | _, .leaf v, _ => v
  | _, .node even odd, i => if i % 2 = 0 then even.get (i / 2) else odd.get (i / 2)

/-- The tree with `v` at position `i`, taken modulo the number of positions. -/
def set : {n : Nat} → Tree α n → Nat → α → Tree α n
  | _, .leaf _, _, v => .leaf v
  | _, .node even odd, i, v =>
    if i % 2 = 0 then .node (even.set (i / 2) v) odd else .node even (odd.set (i / 2) v)

/-! ### Every tree is determined by its positions -/

theorem get_replicate (n : Nat) (v : α) (i : Nat) : (replicate n v).get i = v := by
  induction n generalizing i with
  | zero => rfl
  | succ n ih => simp [replicate, get, ih]

theorem get_ofFnFrom (f : Nat → α) (n stride start i : Nat) (hi : i < size n) :
    (ofFnFrom f n stride start).get i = f (start + stride * i) := by
  induction n generalizing stride start i with
  | zero =>
    obtain rfl : i = 0 := by simpa [size] using hi
    simp [ofFnFrom, get]
  | succ n ih =>
    have hi' : i / 2 < size n := by rw [size] at hi; omega
    -- The position is twice its half, plus its parity.
    have hpos : stride * i = 2 * stride * (i / 2) + stride * (i % 2) := by
      rw [Nat.mul_comm 2 stride, Nat.mul_assoc, ← Nat.mul_add, Nat.div_add_mod]
    by_cases h : i % 2 = 0
    · simp only [ofFnFrom, get, h, if_true, ih _ _ _ hi']
      rw [hpos, h, Nat.mul_zero, Nat.add_zero]
    · have h1 : i % 2 = 1 := by omega
      simp only [ofFnFrom, get, h, if_false, ih _ _ _ hi']
      rw [hpos, h1, Nat.mul_one, Nat.add_assoc, Nat.add_comm stride]

theorem get_set {n : Nat} (t : Tree α n) (i j : Nat) (v : α) (hi : i < size n) (hj : j < size n) :
    (t.set i v).get j = if i = j then v else t.get j := by
  induction t generalizing i j with
  | leaf w =>
    obtain rfl : i = 0 := by simpa [size] using hi
    obtain rfl : j = 0 := by simpa [size] using hj
    simp [set, get]
  | @node n even odd ihe iho =>
    rw [size] at hi hj
    have hi' : i / 2 < size n := by omega
    have hj' : j / 2 < size n := by omega
    -- Equal positions have equal parity and equal halves.
    by_cases hpi : i % 2 = 0 <;> by_cases hpj : j % 2 = 0
    · have : i / 2 = j / 2 ↔ i = j := by omega
      simp [set, get, hpi, hpj, ihe _ _ hi' hj', this]
    · have : i ≠ j := by omega
      simp [set, get, hpi, hpj, this]
    · have : i ≠ j := by omega
      simp [set, get, hpi, hpj, this]
    · have : i / 2 = j / 2 ↔ i = j := by omega
      simp [set, get, hpi, hpj, iho _ _ hi' hj', this]

theorem ext_get {n : Nat} {s t : Tree α n} (h : ∀ i < size n, s.get i = t.get i) : s = t := by
  induction n with
  | zero =>
    cases s; cases t
    simpa [get] using h 0 (by simp [size])
  | succ n ih =>
    cases s with | node sEven sOdd =>
    cases t with | node tEven tOdd =>
    have he : sEven = tEven := ih fun i hi ↦ by
      have := h (2 * i) (by rw [size]; omega)
      simpa [get] using this
    have ho : sOdd = tOdd := ih fun i hi ↦ by
      have := h (2 * i + 1) (by rw [size]; omega)
      simpa [get, Nat.mul_add_mod, Nat.mul_add_div] using this
    rw [he, ho]

end Tree

/-- A memory of 65536 bytes, one for each 16-bit address. -/
structure Memory where
  /-- The bytes, by address. -/
  cells : Tree UInt8 16

namespace Memory

/-- The memory that holds `v` at every address. -/
def fill (v : UInt8) : Memory := ⟨.replicate 16 v⟩

/-- The memory that holds `f a` at every address `a`. -/
def ofFn (f : UInt16 → UInt8) : Memory := ⟨.ofFnFrom (fun i ↦ f (UInt16.ofNat i)) 16 1 0⟩

/-- The byte at address `a`. -/
def get (m : Memory) (a : UInt16) : UInt8 := m.cells.get a.toNat

/-- The memory with `v` at address `a`. -/
def set (m : Memory) (a : UInt16) (v : UInt8) : Memory := ⟨m.cells.set a.toNat v⟩

/-- The memory with `bytes` stored from address `a` upwards, wrapping at the top. -/
def overwrite (m : Memory) (a : UInt16) : List UInt8 → Memory
  | [] => m
  | v :: bytes => (m.set a v).overwrite (a + 1) bytes

instance : Inhabited Memory := ⟨fill 0⟩

/-- Every address is a position of the tree. -/
theorem toNat_lt_size (a : UInt16) : a.toNat < Tree.size 16 := a.toNat_lt

@[simp] theorem get_fill (v : UInt8) (a : UInt16) : (fill v).get a = v :=
  Tree.get_replicate ..

/-- A memory given by a function holds what the function says. -/
@[simp] theorem get_ofFn (f : UInt16 → UInt8) (a : UInt16) : (ofFn f).get a = f a := by
  simp [ofFn, get, Tree.get_ofFnFrom _ _ _ _ _ (toNat_lt_size a)]

/-- **A cell that is set holds what it is set to**, and the others hold what they held. -/
theorem get_set (m : Memory) (a b : UInt16) (v : UInt8) :
    (m.set a v).get b = if a = b then v else m.get b := by
  simp only [get, set, Tree.get_set _ _ _ _ (toNat_lt_size a) (toNat_lt_size b),
    UInt16.toNat_inj]

/-- The cell itself. -/
@[simp] theorem get_set_self (m : Memory) (a : UInt16) (v : UInt8) : (m.set a v).get a = v := by
  simp [get_set]

/-- Any other cell. -/
theorem get_set_of_ne (m : Memory) {a b : UInt16} (v : UInt8) (h : a ≠ b) :
    (m.set a v).get b = m.get b := by
  simp [get_set, h]

/-- Two memories with the same byte at every address are equal. -/
@[ext] theorem ext {m m' : Memory} (h : ∀ a, m.get a = m'.get a) : m = m' := by
  cases m with | mk s =>
  cases m' with | mk t =>
  have hst : s = t := Tree.ext_get fun i hi ↦ by
    have hi' : (UInt16.ofNat i).toNat = i := UInt16.toNat_ofNat_of_lt hi
    simpa only [get, hi'] using h (UInt16.ofNat i)
  rw [hst]

end Memory

end GameBoy
