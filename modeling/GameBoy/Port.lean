import GameBoy.Event
import GameBoy.Memory

/-!
# What the CPU is attached to

The CPU sees the rest of the machine through a port: bytes at 16-bit addresses, read and written one
at a time. A read hands the port back because reading may have an effect there.

A port also hears about notable events. It may ignore them, and a port that says nothing about
`note` does.

Every statement about the CPU that assumes no more than a `Port` instance holds whatever is
attached, and however it answers.
-/

namespace GameBoy

/-- Something that answers reads and writes of bytes. -/
class Port (M : Type) where
  /-- The byte at an address, and the port after the read. -/
  read : M → UInt16 → UInt8 × M
  /-- The port after a byte has been written to an address. -/
  write : M → UInt16 → UInt8 → M
  /-- The port after it has been told of an event. -/
  note : M → Event → M := fun m _ ↦ m

namespace Port

variable {M : Type} [Port M]

/-- The word at an address, low byte first. The address after 0xFFFF is 0. -/
def readWord (m : M) (a : UInt16) : UInt16 × M :=
  let (low, m) := read m a
  let (high, m) := read m (a + 1)
  (word high low, m)

/-- Writes a word, low byte first. The address after 0xFFFF is 0. -/
def writeWord (m : M) (a w : UInt16) : M :=
  write (write m a (lowByte w)) (a + 1) (highByte w)

/-- The bytes at `count` addresses from `a` upwards, as successive reads deliver them. -/
def readMany (m : M) (a : UInt16) : Nat → List UInt8 × M
  | 0 => ([], m)
  | count + 1 =>
    let (v, m) := read m a
    let (rest, m) := readMany m (a + 1) count
    (v :: rest, m)

/-- Writes bytes from address `a` upwards. -/
def writeMany (m : M) (a : UInt16) : List UInt8 → M
  | [] => m
  | v :: bytes => writeMany (write m a v) (a + 1) bytes

end Port

/-- A plain memory answers with its bytes and keeps what is written. -/
instance : Port Memory where
  read m a := (m.get a, m)
  write m a v := m.set a v

end GameBoy
