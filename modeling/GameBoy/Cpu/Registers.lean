import GameBoy.Cpu.Flags
import GameBoy.Word

/-!
# The register file

Eight byte registers, one of which holds the flags, the stack pointer and the program counter. The
pairs AF, BC, DE and HL are not stored: they are words read off two byte registers, and writing one
writes both.
-/

namespace GameBoy

/-- The registers of the CPU. -/
@[ext] structure Registers where
  /-- The accumulator. -/
  a : UInt8 := 0
  /-- The register F, with the condition flags. -/
  flags : Flags := {}
  /-- High byte of BC. -/
  b : UInt8 := 0
  /-- Low byte of BC. -/
  c : UInt8 := 0
  /-- High byte of DE. -/
  d : UInt8 := 0
  /-- Low byte of DE. -/
  e : UInt8 := 0
  /-- High byte of HL. -/
  h : UInt8 := 0
  /-- Low byte of HL. -/
  l : UInt8 := 0
  /-- The stack pointer. -/
  sp : UInt16 := 0
  /-- The program counter. -/
  pc : UInt16 := 0
deriving DecidableEq, Repr, Inhabited

namespace Registers

/-- The byte in the register F. -/
def f (r : Registers) : UInt8 := r.flags.byte

/-- Assigns a byte to the register F, which keeps its upper half. -/
def setF (r : Registers) (v : UInt8) : Registers := { r with flags := .ofByte v }

/-- The pair AF. -/
def af (r : Registers) : UInt16 := word r.a r.f

/-- The pair BC. -/
def bc (r : Registers) : UInt16 := word r.b r.c

/-- The pair DE. -/
def de (r : Registers) : UInt16 := word r.d r.e

/-- The pair HL. -/
def hl (r : Registers) : UInt16 := word r.h r.l

/-- Writes the pair AF. Of the low byte, F keeps the upper half. -/
def setAF (r : Registers) (w : UInt16) : Registers := { r with a := highByte w }.setF (lowByte w)

/-- Writes the pair BC. -/
def setBC (r : Registers) (w : UInt16) : Registers := { r with b := highByte w, c := lowByte w }

/-- Writes the pair DE. -/
def setDE (r : Registers) (w : UInt16) : Registers := { r with d := highByte w, e := lowByte w }

/-- Writes the pair HL. -/
def setHL (r : Registers) (w : UInt16) : Registers := { r with h := highByte w, l := lowByte w }

@[simp] theorem bc_setBC (r : Registers) (w : UInt16) : (r.setBC w).bc = w :=
  word_highByte_lowByte w

@[simp] theorem de_setDE (r : Registers) (w : UInt16) : (r.setDE w).de = w :=
  word_highByte_lowByte w

/-- HL holds the word that has been written to it. -/
@[simp] theorem hl_setHL (r : Registers) (w : UInt16) : (r.setHL w).hl = w :=
  word_highByte_lowByte w

end Registers

end GameBoy
