import GameBoy.Clock
import GameBoy.Memory
import GameBoy.Word

/-!
# Copying into object memory

A write to the copy register starts a transfer of 160 bytes from the start of a page to object
memory, one byte every four ticks. Bytes are taken when their turn comes, so a program can watch the
copy fill up and can still change what is to be copied. Pages above work memory show work memory
again, thirty-two pages lower, and are read there.

The engine copies within a memory, so it advances as `ObjectCopy.Channel`: the engine together with
that memory.
-/

namespace GameBoy

/-- The state of the copying engine. -/
structure ObjectCopy where
  /-- Ticks lived through. -/
  clock : Nat := 0
  /-- The value last written to the copy register. -/
  register : UInt8 := 0xFF
  /-- The address of the first byte of the source. -/
  source : UInt16 := 0
  /-- The offset of the next byte to copy, if a copy is in progress. -/
  next : Option Nat := none
deriving DecidableEq, Repr

namespace ObjectCopy

/-- The ticks of one advance, which copies one byte. -/
def stride : Nat := 4

/-- The number of bytes copied. -/
def length : Nat := 160

/-- The address of object memory. -/
def target : UInt16 := 0xFE00

/-- Whether a copy is in progress. -/
def active (d : ObjectCopy) : Bool := d.next.isSome

/-- The address of the first byte of the source that a register value selects. -/
def sourceOf (v : UInt8) : UInt16 := word (if v < 0xE0 then v else v - 0x20) 0

/-- Writes the copy register, which starts a copy. A copy in progress is begun anew. -/
def start (d : ObjectCopy) (v : UInt8) : ObjectCopy :=
  { d with register := v, source := sourceOf v, next := some 0 }

/-- A copying engine and the memory it copies within. -/
structure Channel where
  /-- The engine. -/
  engine : ObjectCopy
  /-- The memory. -/
  memory : Memory

namespace Channel

/-- Copies the byte at offset `i`. -/
def copy (c : Channel) (i : Nat) : Channel :=
  let v := c.memory.get (c.engine.source + UInt16.ofNat i)
  { engine := { c.engine with next := if i + 1 < length then some (i + 1) else none }
    memory := c.memory.set (target + UInt16.ofNat i) v }

/-- One advance. A copy requests no interrupt. -/
def advance (c : Channel) (requests : InterruptSet) : Channel × InterruptSet :=
  let c := { c with engine := { c.engine with clock := c.engine.clock + stride } }
  match c.engine.next with
  | none => (c, requests)
  | some i => (c.copy i, requests)

instance : Peripheral Channel where
  clock c := c.engine.clock
  advance := advance

end Channel

end ObjectCopy

end GameBoy
