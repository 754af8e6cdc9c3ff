import GameBoy.Word

/-!
# Condition flags

The register F is a byte. The four flags of the CPU are the bits of its upper half, in the order
zero, subtract, half carry, carry. The bits of its lower half mean nothing and are meant to be zero,
but the type of a byte does not say so. It is a matter of how F is written: a byte that is assigned
to it loses its lower half (`Flags.ofByte`), and anything else sets or clears one flag at a time
(`Flags.set`).
-/

namespace GameBoy

/-- One of the four condition flags. -/
inductive Flag where
  /-- The last result was zero. -/
  | z
  /-- The last operation was a subtraction. -/
  | n
  /-- A carry left the lower half of the byte. -/
  | h
  /-- A carry left the byte. -/
  | c
deriving DecidableEq, Repr

namespace Flag

/-- All flags, from the most significant bit of the byte downwards. -/
def all : List Flag := [z, n, h, c]

/-- There are no other flags. -/
theorem mem_all (f : Flag) : f ∈ all := by
  cases f <;> decide

/-- The bit that a flag occupies in the flags byte. -/
def bit : Flag → Nat
  | z => 7
  | n => 6
  | h => 5
  | c => 4

/-- The byte in which only this flag is set. -/
def mask (f : Flag) : UInt8 := UInt8.ofNat (1 <<< f.bit)

variable (f g : Flag)

theorem mask_ne_zero : f.mask ≠ 0 := by
  cases f <;> decide

/-- Every flag has a bit of its own. -/
theorem mask_and_mask : f.mask &&& g.mask = if f = g then g.mask else 0 := by
  cases f <;> cases g <;> rfl

theorem not_mask_and_mask : ~~~f.mask &&& g.mask = if f = g then 0 else g.mask := by
  cases f <;> cases g <;> rfl

end Flag

/-- The register F. -/
@[ext] structure Flags where
  /-- The byte that it holds. -/
  byte : UInt8 := 0
deriving DecidableEq, Repr, Inhabited

namespace Flags

/-- The register once a byte has been assigned to it. -/
def ofByte (b : UInt8) : Flags := ⟨b &&& 0xF0⟩

/-- The value of one flag. -/
def get (fs : Flags) (f : Flag) : Bool := fs.byte &&& f.mask != 0

/-- The register with one flag set to `v`. -/
def set (fs : Flags) (f : Flag) (v : Bool) : Flags :=
  ⟨if v then fs.byte ||| f.mask else fs.byte &&& ~~~f.mask⟩

/-- The register once it has been cleared and then its flags have been set, one by one. -/
def of (z n h c : Bool) : Flags := ((((ofByte 0).set .z z).set .n n).set .h h).set .c c

/-- Zero. -/
abbrev z (fs : Flags) : Bool := fs.get .z

/-- Subtract. -/
abbrev n (fs : Flags) : Bool := fs.get .n

/-- Half carry. -/
abbrev h (fs : Flags) : Bool := fs.get .h

/-- Carry. -/
abbrev c (fs : Flags) : Bool := fs.get .c

/-- **A flag that is set to a value has this value**, and the others keep theirs. -/
@[simp] theorem get_set (fs : Flags) (f g : Flag) (v : Bool) :
    (fs.set f v).get g = if f = g then v else fs.get g := by
  cases v with
  | false =>
    have hbit : fs.byte &&& ~~~f.mask &&& g.mask = if f = g then 0 else fs.byte &&& g.mask := by
      rw [UInt8.and_assoc, f.not_mask_and_mask g]
      split
      · exact UInt8.and_zero
      · rfl
    show (fs.byte &&& ~~~f.mask &&& g.mask != 0) = _
    rw [hbit]
    split <;> rfl
  | true =>
    have hbit : (fs.byte ||| f.mask) &&& g.mask =
        (fs.byte &&& g.mask) ||| if f = g then g.mask else 0 := by
      rw [← f.mask_and_mask g]
      exact UInt8.toBitVec_inj.mp BitVec.and_or_distrib_right
    show ((fs.byte ||| f.mask) &&& g.mask != 0) = _
    rw [hbit]
    split
    · exact bne_iff_ne.mpr fun hzero ↦ g.mask_ne_zero (UInt8.or_eq_zero_iff.mp hzero).2
    · rw [UInt8.or_zero]
      rfl

section Of

variable (z n h c : Bool)

/-- The flags of a register that has been cleared and set again are the ones it has been set to. -/
@[simp] theorem z_of : (of z n h c).z = z := by
  simp [of]

@[simp] theorem n_of : (of z n h c).n = n := by
  simp [of]

@[simp] theorem h_of : (of z n h c).h = h := by
  simp [of]

@[simp] theorem c_of : (of z n h c).c = c := by
  simp [of]

end Of

end Flags

end GameBoy
