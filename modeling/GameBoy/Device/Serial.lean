import GameBoy.Clock

/-!
# The serial port

A serial port with nobody at the other end. A transfer under the port's own clock shifts one bit
every 512 ticks; the open line reads high, so ones come in, and after eight bits the port requests
its interrupt. A transfer under a partner's clock never moves.

The bytes that are sent can be kept. They are recorded when a transfer begins, and recording has no
influence on anything else.
-/

namespace GameBoy

/-- The state of the serial port. -/
structure Serial where
  /-- Ticks lived through. -/
  clock : Nat := 0
  /-- The data register. -/
  data : UInt8 := 0
  /-- A transfer has been asked for and is not complete. -/
  requested : Bool := false
  /-- The port's own clock is selected. -/
  internalClock : Bool := false
  /-- Bits still to be shifted. -/
  bitsLeft : Nat := 0
  /-- Whether the bytes sent are kept. -/
  capture : Bool
  /-- The bytes sent so far. -/
  output : Array UInt8 := #[]
deriving DecidableEq, Repr

namespace Serial

/-- The ticks of one advance, which shifts one bit. -/
def stride : Nat := 512

/-- Back to the beginning. What was recorded is dropped. -/
def reset (p : Serial) : Serial := { capture := p.capture }

/-- Whether bits are being shifted. -/
def active (p : Serial) : Bool := p.bitsLeft != 0

/-- One advance. -/
def advance (p : Serial) (requests : InterruptSet) : Serial × InterruptSet :=
  let p := { p with clock := p.clock + stride }
  match p.bitsLeft with
  | 0 => (p, requests)
  | left + 1 =>
    let p := { p with data := (p.data <<< 1) ||| 1, bitsLeft := left }
    if left = 0 then ({ p with requested := false }, requests.insert .serial) else (p, requests)

instance : Peripheral Serial where
  clock := Serial.clock
  advance := advance

/-! ### Registers -/

/-- Writes the data register. -/
def setData (p : Serial) (v : UInt8) : Serial := { p with data := v }

/-- The control register. Its unused bits read as one. -/
def control (p : Serial) : UInt8 :=
  UInt8.ofNat (0x7E + 128 * p.requested.toNat + p.internalClock.toNat)

/-- Whether writing `v` to the control register asks for a transfer that waits for a partner. -/
def waitsForPartner (v : UInt8) : Bool := v.toNat.testBit 7 && !v.toNat.testBit 0

/-- Whether writing `v` to the control register begins a transfer. -/
def begins (v : UInt8) : Bool := v.toNat.testBit 7 && v.toNat.testBit 0

/-- Writes the control register. A transfer in progress is begun anew or given up. -/
def setControl (p : Serial) (v : UInt8) : Serial :=
  let p := { p with requested := v.toNat.testBit 7, internalClock := v.toNat.testBit 0 }
  if begins v then
    let output := if p.capture then p.output.push p.data else p.output
    { p with bitsLeft := 8, output }
  else { p with bitsLeft := 0 }

/-- The recorded bytes, and the port without them. -/
def takeOutput (p : Serial) : Array UInt8 × Serial := (p.output, { p with output := #[] })

end Serial

end GameBoy
