import GameBoy.Bus
import GameBoy.Cpu.Step

/-!
# The machine

A CPU on its bus. `Machine.step` keeps the two in step: the CPU moves first, and then every device
is brought up to its clock, so that what a device requests is seen by the CPU's next step. A fault
leaves the devices where they were.

`Machine.runForTicks` repeats steps until enough time has passed. Steps take at least four ticks, so
it makes fewer of them than there are ticks to pass.
-/

namespace GameBoy

/-- The settings of a session. -/
structure Config where
  /-- What to do at an opcode without a meaning. -/
  policy : IllegalOpcodePolicy := .fatal
  /-- Whether the bytes sent over the serial port are kept. -/
  capture : Bool := true
deriving DecidableEq, Repr

/-- A CPU attached to the bus. -/
abbrev Machine := Board Bus

namespace Machine

/-- The machine at power-on, with the CPU where a program begins. -/
def powerOn (config : Config) : Machine where
  cpu := .powerOn config.policy
  bus := .powerOn config.capture

/-- Maps a program image. -/
def loadRom (m : Machine) (rom : Array UInt8) : Machine := { m with bus := m.bus.loadRom rom }

/-- Back to where a program begins, with the same program image. -/
def reset (m : Machine) : Machine where
  cpu := m.cpu.reset
  bus := m.bus.reset

/-- One step of the CPU, after which the devices catch up. Returns the ticks it took. -/
def step (m : Machine) : Except Fault Nat × Machine :=
  match Board.step m with
  | (.error e, m) => (.error e, m)
  | (.ok ticks, m) => (.ok ticks, { m with bus := m.bus.catchUp m.cpu.clock })

/-- Steps until the clock has reached `target`, and at most `fuel` times. -/
def runUntil (target : Nat) : (fuel : Nat) → Machine → Except Fault Unit × Machine
  | 0, m => (.ok (), m)
  | fuel + 1, m =>
    if m.cpu.clock < target then
      match step m with
      | (.error e, m) => (.error e, m)
      | (.ok _, m) => runUntil target fuel m
    else (.ok (), m)

/-- Steps until at least `ticks` more ticks have passed. Returns the ticks that did, which are a
few more if the last step was longer than what was left. -/
def runForTicks (m : Machine) (ticks : Nat) : Except Fault Nat × Machine :=
  let start := m.cpu.clock
  let target := min (start + ticks) lastTick
  match runUntil target (target - start) m with
  | (.error e, m) => (.error e, m)
  | (.ok _, m) => (.ok (m.cpu.clock - start), m)

end Machine

end GameBoy
