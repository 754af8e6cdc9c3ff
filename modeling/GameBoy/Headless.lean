import GameBoy.Machine
import GameBoy.Text.Utf8

/-!
# Running a program without a screen

Test programs report over the serial port, in words. `run` steps a machine until one of the two
words has been sent, or a fault occurs, or a budget of steps is used up. The words are looked for
whenever something more has been sent, and only then: looking again at the same bytes could find
nothing new.
-/

namespace GameBoy

/-- How a run has ended. -/
inductive Verdict where
  /-- The program has reported success. -/
  | passed
  /-- The program has reported failure. -/
  | failed
  /-- The budget was used up before the program reported anything. -/
  | stepLimit
deriving DecidableEq, Repr

/-- The verdict in words. -/
def Verdict.phrase : Verdict → String
  | passed => "passed"
  | failed => "failed"
  | stepLimit => "step limit reached"

/-- What a run is allowed to do. -/
structure RunOptions where
  /-- The budget of steps. -/
  maxSteps : Nat := 100000000
  /-- Whether opcodes without a meaning are skipped. -/
  lenient : Bool := false
deriving DecidableEq, Repr

/-- What came out of a run. -/
structure RunReport where
  /-- How it ended. -/
  verdict : Verdict
  /-- The steps made. -/
  steps : Nat
  /-- The ticks that passed. -/
  ticks : Nat
  /-- The bytes sent over the serial port. -/
  serial : Array UInt8
deriving DecidableEq, Repr

/-- A run that was ended by a fault, with the state in which the fault left the machine. -/
structure RunError where
  /-- The steps made before. -/
  steps : Nat
  /-- The clock of the CPU. -/
  clock : Nat
  /-- The stack pointer. -/
  sp : UInt16
  /-- The fault. -/
  cause : Fault
deriving DecidableEq, Repr

/-- The report of a run that was ended by a fault. The fault has a report of its own. -/
def RunError.message (e : RunError) : String :=
  s!"execution stopped after {e.steps} steps (clock={e.clock}, SP={Text.hexWord e.sp})"

/-- The bytes sent, as text. -/
def RunReport.transcript (r : RunReport) : String := Text.readUtf8 r.serial.toList

/-! ### Verdicts -/

/-- Whether `bytes` contain `word` as consecutive elements. -/
def containsWord (word : List UInt8) : List UInt8 → Bool
  | [] => word.isEmpty
  | b :: rest => word.isPrefixOf (b :: rest) || containsWord word rest

/-- The bytes of a word of plain letters. -/
def wordBytes (word : String) : List UInt8 := word.toList.map fun c ↦ UInt8.ofNat c.toNat

/-- The verdict that the bytes sent so far amount to. -/
def scanVerdict (serial : List UInt8) : Option Verdict :=
  if containsWord (wordBytes "Passed") serial then some .passed
  else if containsWord (wordBytes "Failed") serial then some .failed
  else none

/-! ### Runs -/

/-- The settings under which a run takes place. -/
def RunOptions.config (options : RunOptions) : Config where
  policy := if options.lenient then .ignore else .fatal

/-- The machine with which a run begins. -/
def runStart (rom : Array UInt8) (options : RunOptions) : Machine :=
  (Machine.powerOn options.config).loadRom rom

/-- Steps until a verdict is reached, at most `budget` times. So far `steps` steps have been made,
and the first `scanned` bytes sent have been looked at. -/
def runLoop : (budget steps scanned : Nat) → Machine → Except RunError (Verdict × Nat × Machine)
  | 0, steps, _, m => .ok (.stepLimit, steps, m)
  | budget + 1, steps, scanned, m =>
    match Machine.step m with
    | (.error cause, m) => .error { steps, clock := m.cpu.clock, sp := m.cpu.regs.sp, cause }
    | (.ok _, m) =>
      let sent := m.bus.serial.output.size
      if sent = scanned then runLoop budget (steps + 1) scanned m
      else
        match scanVerdict m.bus.serial.output.toList with
        | some verdict => .ok (verdict, steps + 1, m)
        | none => runLoop budget (steps + 1) sent m

/-- Runs a program image. -/
def run (rom : Array UInt8) (options : RunOptions) : Except RunError RunReport :=
  match runLoop options.maxSteps 0 0 (runStart rom options) with
  | .error e => .error e
  | .ok (verdict, steps, m) =>
    .ok { verdict, steps, ticks := m.cpu.clock, serial := m.bus.serial.output }

end GameBoy
