import GameBoy.Headless

/-!
# Journals

A journal is the sequence of notable events of a run, in words. The machine itself keeps none:
`Journaled` is a port over the bus that writes down what it is told and what it sees being written,
and the events of a step are those that such a port collects while the CPU makes that step on it.

Each event has a level. A journal is read down to some level: the more urgent ones are included.
-/

namespace GameBoy

/-! ### Records -/

/-- How urgent a record is. -/
inductive Level where
  /-- Something has gone wrong. -/
  | error
  /-- Something may be wrong. -/
  | warn
  /-- Progress. -/
  | info
  /-- Detail. -/
  | debug
deriving DecidableEq, Repr

/-- The name of a level. -/
def Level.name : Level → String
  | error => "ERROR"
  | warn => "WARN"
  | info => "INFO"
  | debug => "DEBUG"

/-- The place of a level, the most urgent one being 0. -/
def Level.rank : Level → Nat
  | error => 0
  | warn => 1
  | info => 2
  | debug => 3

/-- An entry of a journal. -/
structure Record where
  /-- How urgent it is. -/
  level : Level
  /-- What it says. -/
  message : String
deriving DecidableEq, Repr

/-- The records that are at least as urgent as `level`; without a level there are none. -/
def Record.upTo (level : Option Level) (records : List Record) : List Record :=
  match level with
  | none => []
  | some level => records.filter fun r ↦ r.level.rank ≤ level.rank

open Text in
/-- An event in words. -/
def Event.record : Event → Record
  | .stopEnded clock => ⟨.debug, s!"GB CPU leaving STOP on joypad edge at clock={clock}"⟩
  | .haltEnded source pc =>
    ⟨.debug, s!"GB CPU leaving HALT without IME ({source.name} pending) at PC={hexWord pc}"⟩
  | .interruptTaken source pc sp pending enabled =>
    ⟨.debug, s!"GB CPU interrupt: {source.name} vector={hexWord source.vector} " ++
      s!"pc={hexWord pc} sp={hexWord sp} " ++
      s!"IF={hexByte pending.toByte} IE={hexByte enabled.toByte}"⟩
  | .opcodePassed pc =>
    ⟨.debug, s!"GB CPU illegal opcode 0xFD at PC={hexWord pc}: re-decoding next byte"⟩
  | .opcodeRejected opcode r =>
    ⟨.error, s!"GB CPU undecodable opcode {hexByte opcode} at PC={hexWord r.pc} " ++
      s!"(SP={hexWord r.sp} AF={hexWord r.af} BC={hexWord r.bc} " ++
      s!"DE={hexWord r.de} HL={hexWord r.hl})"⟩
  | .opcodeIgnored opcode pc =>
    ⟨.warn, s!"GB CPU ignoring illegal opcode {hexByte opcode} at PC={hexWord pc}"⟩
  | .imeChanged enable clock due =>
    ⟨.debug, s!"GB CPU IME <- {enable} at clock={clock} (due {due})"⟩
  | .displaySwitched on line =>
    let state := if on then "on" else "off"
    ⟨.debug, s!"GB video LCD {state} at LY={line}"⟩
  | .transferWaiting data =>
    ⟨.debug, s!"GB serial transfer armed on external clock, SB={hexByte data}"⟩
  | .copyStarted source => ⟨.debug, s!"GB OAM DMA from {hexWord source}"⟩
  | .romTruncated size mapped =>
    ⟨.warn, s!"GB ROM is {size} bytes; mapping only the first {mapped} (no MBC)"⟩
  | .romLoaded size => ⟨.info, s!"GB ROM loaded: {size} bytes"⟩

/-! ### Events of a step -/

/-- What is notable about writing `v` to an address. -/
def Bus.writeEvents (bus : Bus) (a : UInt16) (v : UInt8) : List Event :=
  match Location.ofAddress a with
  | .register .displayControl =>
    let on := Video.switchesOn v
    if on = bus.video.on then [] else [.displaySwitched on bus.video.line]
  | .register .serialControl =>
    if Serial.waitsForPartner v then [.transferWaiting bus.serial.data] else []
  | .register .objectCopy => [.copyStarted (ObjectCopy.sourceOf v)]
  | _ => []

/-- A bus and the events noted on it. -/
structure Journaled where
  /-- The bus. -/
  bus : Bus
  /-- The events, in order. -/
  events : Array Event := #[]

instance : Port Journaled where
  read j a :=
    let (v, bus) := Port.read j.bus a
    (v, { j with bus })
  write j a v :=
    { bus := Port.write j.bus a v
      events := j.events ++ (j.bus.writeEvents a v).toArray }
  note j e := { j with events := j.events.push e }

/-- The events of the machine's next step. The devices, which catch up afterwards, note nothing. -/
def Machine.stepEvents (m : Machine) : Array Event :=
  let journaled : Board Journaled := { cpu := m.cpu, bus := { bus := m.bus } }
  journaled.step.2.bus.events

/-- The events of the next `steps` steps, after those in `acc`. -/
def Machine.eventsFrom : (steps : Nat) → Machine → (acc : Array Event) → Array Event
  | 0, _, acc => acc
  | steps + 1, m, acc => eventsFrom steps (Machine.step m).2 (acc ++ stepEvents m)

/-! ### The journal of a run -/

/-- The events of mapping a program image. -/
def romEvents (rom : Array UInt8) : List Event :=
  let mapped := min rom.size Location.romSize
  if Location.romSize < rom.size then
    [.romTruncated rom.size Location.romSize, .romLoaded mapped]
  else [.romLoaded mapped]

/-- The steps that a run has attempted, the failing one included. -/
def attemptedSteps : Except RunError RunReport → Nat
  | .error e => e.steps + 1
  | .ok r => r.steps

/-- The records with which a run ends. -/
def closingRecords (options : RunOptions) : Except RunError RunReport → List Record
  | .error _ => []
  | .ok r =>
    let finished : Record :=
      ⟨.info, s!"Run finished: {r.verdict.phrase} after {r.steps} steps ({r.ticks} ticks)"⟩
    if r.verdict = .stepLimit then
      [⟨.warn, s!"Step limit of {options.maxSteps} reached"⟩, finished]
    else [finished]

/-- The journal of running a program image. -/
def runJournal (rom : Array UInt8) (options : RunOptions) : List Record :=
  let outcome := run rom options
  let events := Machine.eventsFrom (attemptedSteps outcome) (runStart rom options) #[]
  (romEvents rom ++ events.toList).map Event.record ++ closingRecords options outcome

end GameBoy
