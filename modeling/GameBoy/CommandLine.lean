import GameBoy.Journal
import GameBoy.Text.Numeral

/-!
# The command line

From arguments to output. Arguments are read from left to right: the first that is not the switch
names a program image, the second is a budget of steps, and there is no third. `plan` decides
what is to be done with them before any file is looked at, and `finish` does it once the file has
been read, or could not be.
-/

namespace GameBoy.CommandLine

/-! ### Arguments -/

/-- The arguments read so far. -/
structure Arguments where
  /-- The path of the program image. -/
  path : Option String := none
  /-- The budget of steps. -/
  maxSteps : Option Nat := none
  /-- Whether opcodes without a meaning are to be skipped. -/
  lenient : Bool := false
deriving DecidableEq, Repr

/-- Why arguments were not accepted. -/
inductive ArgumentError where
  /-- The budget is not a number. -/
  | invalidSteps (argument : String) (cause : Text.NumeralError)
  /-- There is an argument too many. -/
  | unexpected (argument : String)
deriving DecidableEq, Repr

/-- How the program is to be called. -/
def usage : String := "usage: dmgboy <rom> [max_steps] [--lenient]"

/-- The switch that makes a run lenient. -/
def lenientSwitch : String := "--lenient"

/-- The greatest budget that can be asked for. -/
def maxBudget : Nat := UInt64.size - 1

/-- Reads one more argument. -/
def Arguments.add (args : Arguments) (argument : String) : Except ArgumentError Arguments :=
  if argument = lenientSwitch then .ok { args with lenient := true }
  else if args.path.isNone then .ok { args with path := some argument }
  else if args.maxSteps.isNone then
    match Text.readBounded maxBudget argument with
    | .ok steps => .ok { args with maxSteps := some steps }
    | .error cause => .error (.invalidSteps argument cause)
  else .error (.unexpected argument)

/-- Reads arguments from left to right, up to the first that is not accepted. -/
def Arguments.read (args : Arguments) : List String → Except ArgumentError Arguments
  | [] => .ok args
  | argument :: rest =>
    match args.add argument with
    | .ok args => args.read rest
    | .error e => .error e

/-- The options of the run that is asked for. -/
def Arguments.options (args : Arguments) : RunOptions :=
  let defaults : RunOptions := {}
  { maxSteps := args.maxSteps.getD defaults.maxSteps, lenient := args.lenient }

/-! ### Files -/

/-- Why a file could not be read. -/
inductive FileError where
  /-- There is no such file. -/
  | notFound
  /-- The path names a directory. -/
  | isDirectory
  /-- The path goes through a file as if it were a directory. -/
  | notDirectory
  /-- The path, or a name in it, is too long. -/
  | nameTooLong
  /-- Reading the file is not permitted. -/
  | permissionDenied
  /-- Anything else, in the words of the system. -/
  | other (message : String)
deriving DecidableEq, Repr

/-- The report of a file that could not be read. -/
def FileError.message : FileError → String
  | notFound => "No such file or directory (os error 2)"
  | isDirectory => "Is a directory (os error 21)"
  | notDirectory => "Not a directory (os error 20)"
  | nameTooLong => "File name too long (os error 36)"
  | permissionDenied => "Permission denied (os error 13)"
  | other message => message

/-! ### Outcomes -/

/-- What the program leaves behind. -/
structure Outcome where
  /-- The exit code. -/
  exitCode : UInt32
  /-- What is written to standard output. -/
  stdout : String := ""
  /-- What is written to standard error. -/
  stderr : String := ""
deriving DecidableEq, Repr

/-- The outcome of a failure, with its cause if it has one. -/
def failure (message : String) (cause : Option String) : Outcome :=
  let because :=
    match cause with
    | none => ""
    | some cause => s!"\n\nCaused by:\n    {cause}"
  { exitCode := 1, stderr := s!"Error: {message}{because}\n" }

/-- The outcome of arguments that were not accepted. -/
def ArgumentError.outcome : ArgumentError → Outcome
  | invalidSteps argument cause => failure s!"invalid step count '{argument}'" (some cause.message)
  | unexpected argument => failure s!"unexpected argument '{argument}'\n{usage}" none

/-- The line that sums a run up. The emulated time is written from the exact quotient. Up to 2 ^ 53
ticks the quotient in floating point (`seconds`) is the same number; beyond, it has been rounded and
may be written differently. -/
def summary (r : RunReport) : String :=
  let emulated := Text.fixed 3 r.ticks ticksPerSecond
  s!"{r.verdict.phrase}: {r.steps} steps, {r.ticks} ticks, {emulated} s emulated"

/-- The outcome of a run. -/
def runOutcome : Except RunError RunReport → Outcome
  | .error e => failure e.message (some e.cause.message)
  | .ok r =>
    { exitCode := if r.verdict = .passed then 0 else 1
      stdout := s!"{r.transcript}\n{summary r}\n" }

/-- What is to be done with the arguments. -/
inductive Plan where
  /-- Nothing more: this is the outcome. -/
  | stop (outcome : Outcome)
  /-- Read the file and run it. -/
  | run (path : String) (options : RunOptions)
deriving DecidableEq, Repr

/-- Decides what is to be done with the arguments. -/
def plan (arguments : List String) : Plan :=
  match ({} : Arguments).read arguments with
  | .error e => .stop e.outcome
  | .ok args =>
    match args.path with
    | none => .stop { exitCode := 2, stderr := s!"{usage}\n" }
    | some path => .run path args.options

/-- Runs what has been read from the file. -/
def finish (path : String) (options : RunOptions) :
    Except FileError (Array UInt8) → Outcome
  | .error e => failure s!"failed to read ROM '{path}'" (some e.message)
  | .ok rom => runOutcome (GameBoy.run rom options)

/-- The outcome of calling the program, when files are as `file` tells. -/
def respond (file : String → Except FileError (Array UInt8)) (arguments : List String) :
    Outcome :=
  match plan arguments with
  | .stop outcome => outcome
  | .run path options => finish path options (file path)

/-- The journal of running what has been read from the file. -/
def finishJournal (path : String) (options : RunOptions) :
    Except FileError (Array UInt8) → List Record := fun contents ↦
  let started : Record := ⟨.info, s!"Running ROM '{path}'"⟩
  match contents with
  | .error _ => [started]
  | .ok rom => started :: runJournal rom options

/-- The journal of calling the program, when files are as `file` tells. -/
def journal (file : String → Except FileError (Array UInt8)) (arguments : List String) :
    List Record :=
  match plan arguments with
  | .stop _ => []
  | .run path options => finishJournal path options (file path)

end GameBoy.CommandLine
