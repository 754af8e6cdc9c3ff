import GameBoy.Clock

/-!
# The timer

A hidden 16-bit counter advances once every four ticks. The divider register shows part of it, and
the timer register counts the falling edges of one of its bits, which the control register selects;
a bit of a timer that is switched off is taken to be low. Whatever makes that signal fall makes the
timer count: an advance, clearing the counter, or a write to the control register.

An overflow is not acted upon at once. The register reads zero until the next advance, which loads
it from the modulo register and requests the interrupt; writing the register in between calls that
off.
-/

namespace GameBoy

/-- The state of the timer. The initial values are those a program finds when it begins. -/
structure Timer where
  /-- Ticks lived through. -/
  clock : Nat := 0
  /-- The hidden counter. -/
  counter : UInt16 := 0x2AC0
  /-- The timer register. -/
  count : UInt8 := 0
  /-- The modulo register, from which the timer register is loaded after an overflow. -/
  modulo : UInt8 := 0
  /-- Whether the timer register counts. -/
  enabled : Bool := false
  /-- The selected frequency. -/
  rate : Fin 4 := ⟨0, by decide⟩
  /-- The timer register has overflowed and is to be loaded. -/
  overflowed : Bool := false
deriving DecidableEq, Repr

namespace Timer

/-- The ticks of one advance. -/
def stride : Nat := 4

/-- The bit of the counter whose falling edges are counted at a frequency. -/
def watchedBit : Fin 4 → Nat
  | 0 => 7
  | 1 => 1
  | 2 => 3
  | 3 => 5

/-- The signal whose falling edges are counted. -/
def signal (t : Timer) : Bool := t.enabled && t.counter.toNat.testBit (watchedBit t.rate)

/-- Counts once. -/
def tick (t : Timer) : Timer :=
  { t with count := t.count + 1, overflowed := t.overflowed || t.count == 0xFF }

/-- Makes a change to the counter or the control register, and counts once if that lets the signal
fall. -/
def whileCounting (t : Timer) (change : Timer → Timer) : Timer :=
  let changed := change t
  if t.signal && !changed.signal then changed.tick else changed

/-- The timer with its counter moved on by one. -/
def bump (t : Timer) : Timer := { t with counter := t.counter + 1 }

/-- One advance. -/
def advance (t : Timer) (requests : InterruptSet) : Timer × InterruptSet :=
  let t := { t with clock := t.clock + stride }
  if t.overflowed then
    ({ t.bump with count := t.modulo, overflowed := false }, requests.insert .timer)
  else (t.whileCounting bump, requests)

instance : Peripheral Timer where
  clock := Timer.clock
  advance := advance

/-! ### Registers -/

/-- The divider register. -/
def divider (t : Timer) : UInt8 := UInt8.ofNat (t.counter.toNat / 64)

/-- Writing the divider register clears the whole counter, whatever is written. -/
def clearDivider (t : Timer) : Timer := t.whileCounting fun t ↦ { t with counter := 0 }

/-- Writes the timer register, which calls off a load that is due. -/
def setCount (t : Timer) (v : UInt8) : Timer := { t with count := v, overflowed := false }

/-- Writes the modulo register. -/
def setModulo (t : Timer) (v : UInt8) : Timer := { t with modulo := v }

/-- The control register. Its unused bits read as one. -/
def control (t : Timer) : UInt8 := UInt8.ofNat (0xF8 + 4 * t.enabled.toNat + t.rate.val)

/-- Writes the control register. -/
def setControl (t : Timer) (v : UInt8) : Timer :=
  t.whileCounting fun t ↦
    { t with enabled := v.toNat.testBit 2, rate := ⟨v.toNat % 4, Nat.mod_lt _ (by decide)⟩ }

end Timer

end GameBoy
