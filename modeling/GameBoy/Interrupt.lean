/-!
# Interrupt sources

The five sources that can interrupt the CPU, and sets of them. A set is what the request register
and the enable register hold in their five low bits; `InterruptSet.ofByte` forgets the upper three
bits of a byte and `InterruptSet.toByte` writes them as zero.
-/

namespace GameBoy

/-- A source of interrupts, in order of priority. -/
inductive Interrupt where
  /-- The display has finished its last visible line. -/
  | vblank
  /-- A display condition selected in STAT has begun to hold. -/
  | lcdStat
  /-- The programmable timer has overflowed. -/
  | timer
  /-- A serial transfer is complete. -/
  | serial
  /-- A selected button line has gone low. -/
  | joypad
deriving DecidableEq, Repr

namespace Interrupt

/-- The sources, the most urgent one first. -/
def priority : List Interrupt := [vblank, lcdStat, timer, serial, joypad]

/-- The position of the source in the priority order, which is also its bit in a register. -/
def index : Interrupt → Nat
  | vblank => 0
  | lcdStat => 1
  | timer => 2
  | serial => 3
  | joypad => 4

/-- The address of the source's handler. -/
def vector (i : Interrupt) : UInt16 := UInt16.ofNat (0x40 + 8 * i.index)

/-- The name of the source in messages. -/
def name : Interrupt → String
  | vblank => "VBlank"
  | lcdStat => "LcdStat"
  | timer => "Timer"
  | serial => "Serial"
  | joypad => "Joypad"

end Interrupt

/-- A set of interrupt sources: bit `i.index` tells whether source `i` is a member. -/
structure InterruptSet where
  /-- One bit for each source. -/
  bits : BitVec 5
deriving DecidableEq, Repr

namespace InterruptSet

instance : EmptyCollection InterruptSet := ⟨⟨0⟩⟩

instance : Inhabited InterruptSet := ⟨∅⟩

instance : Membership Interrupt InterruptSet where
  mem s i := s.bits.getLsbD i.index = true

instance (i : Interrupt) (s : InterruptSet) : Decidable (i ∈ s) :=
  inferInstanceAs (Decidable (s.bits.getLsbD i.index = true))

instance : Singleton Interrupt InterruptSet where
  singleton i := ⟨BitVec.twoPow 5 i.index⟩

instance : Union InterruptSet where
  union s t := ⟨s.bits ||| t.bits⟩

instance : Inter InterruptSet where
  inter s t := ⟨s.bits &&& t.bits⟩

instance : SDiff InterruptSet where
  sdiff s t := ⟨s.bits &&& ~~~t.bits⟩

/-- The set with one more source requested. -/
def insert (s : InterruptSet) (i : Interrupt) : InterruptSet := s ∪ {i}

/-- The set without the given source. -/
def erase (s : InterruptSet) (i : Interrupt) : InterruptSet := s \ {i}

/-- The sources named by the five low bits of a byte. -/
def ofByte (b : UInt8) : InterruptSet := ⟨BitVec.ofNat 5 b.toNat⟩

/-- The byte whose five low bits name the members. -/
def toByte (s : InterruptSet) : UInt8 := UInt8.ofNat s.bits.toNat

/-- The most urgent member. -/
def highest? (s : InterruptSet) : Option Interrupt := Interrupt.priority.find? (· ∈ s)

/-- A set of sources survives being written as a byte and read back. -/
@[simp] theorem ofByte_toByte (s : InterruptSet) : ofByte s.toByte = s := by
  have := s.bits.isLt
  cases s with | mk b =>
  simp only [ofByte, toByte, UInt8.toNat_ofNat', InterruptSet.mk.injEq]
  apply BitVec.eq_of_toNat_eq
  simp only [BitVec.toNat_ofNat]
  omega

end InterruptSet

end GameBoy
