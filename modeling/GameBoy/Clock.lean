import GameBoy.Interrupt

/-!
# The shared time base

Every duration is counted in ticks of one crystal. A device keeps a clock of its own and moves in
strides; whoever coordinates the machine drives it forward until it is no longer behind.

`Peripheral.catchUp` is that loop. Its length is bounded by the distance to the target, because a
lawful device moves forward whenever it advances; the class `LawfulPeripheral` states that law and
`catchUp` itself does not need it to be defined.
-/

namespace GameBoy

/-- Ticks in one second of emulated time. -/
def ticksPerSecond : Nat := 4194304

/-- The largest count a clock holds. A target beyond it is taken to be this one. -/
def lastTick : Nat := UInt64.size - 1

/-- Ticks as seconds of emulated time. -/
def seconds (ticks : Nat) : Float := ticks.toUInt64.toFloat / ticksPerSecond.toUInt64.toFloat

/-- A device with a clock of its own that can request interrupts as it advances. -/
class Peripheral (P : Type) where
  /-- Ticks this device has lived through. -/
  clock : P → Nat
  /-- One stride of the device, together with what it adds to the pending requests. -/
  advance : P → InterruptSet → P × InterruptSet

/-- The law of a device: every advance moves its clock forward. -/
class LawfulPeripheral (P : Type) [Peripheral P] : Prop where
  /-- The clock is strictly later after an advance. -/
  clock_lt_advance : ∀ (p : P) (requests : InterruptSet),
    Peripheral.clock p < Peripheral.clock (Peripheral.advance p requests).1

namespace Peripheral

variable {P : Type} [Peripheral P]

/-- Advances the device until its clock has reached `target`, and tells how many advances that took.
The loop runs once for each tick of the distance at most. -/
@[specialize]
def catchUp (target : Nat) (p : P) (requests : InterruptSet) : Nat × P × InterruptSet :=
  go (target - clock p) 0 p requests
where
  /-- Advances at most `fuel` more times, after `count` advances already made. -/
  @[specialize]
  go : Nat → Nat → P → InterruptSet → Nat × P × InterruptSet
    | 0, count, p, requests => (count, p, requests)
    | fuel + 1, count, p, requests =>
      if clock p < target then
        let (p, requests) := advance p requests
        go fuel (count + 1) p requests
      else (count, p, requests)

end Peripheral

/-- A device with a constant stride that, from a given time on, requests the same interrupts at
every advance. -/
structure Metronome where
  /-- Ticks lived through. -/
  clock : Nat := 0
  /-- Ticks of one advance. -/
  period : Nat
  /-- What an advance requests. -/
  requests : InterruptSet
  /-- The earliest clock at which an advance requests anything. -/
  after : Nat := 0
deriving DecidableEq, Repr

instance : Peripheral Metronome where
  clock m := m.clock
  advance m pending :=
    let clock := m.clock + m.period
    ({ m with clock }, if m.after ≤ clock then pending ∪ m.requests else pending)

end GameBoy
