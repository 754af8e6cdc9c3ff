import GameBoy.CommandLine

/-!
# The program

Reads the file that the arguments name, prints what `CommandLine` makes of it, and leaves with its
exit code. The variable `GAMEBOY_LOG` names a level down to which the journal is printed on standard
error.
-/

namespace GameBoy.Main

open CommandLine

/-- The level that a name stands for. -/
def levelOfName? : String → Option Level
  | "error" => some .error
  | "warn" => some .warn
  | "info" => some .info
  | "debug" => some .debug
  | _ => none

/-- The number of a system error. Errors of opening a file come with the negative of their number. -/
def errorNumber (code : UInt32) : Nat := min code.toNat (-code).toNat

/-- Why a file could not be read. -/
def fileError (e : IO.Error) : FileError :=
  let other : FileError := .other (toString e)
  match e with
  | .noFileOrDirectory .. => .notFound
  | .permissionDenied .. => .permissionDenied
  | .inappropriateType _ code _ =>
    match errorNumber code with
    | 20 => .notDirectory
    | 21 => .isDirectory
    | _ => other
  | .invalidArgument _ code _ => if errorNumber code = 36 then .nameTooLong else other
  | _ => other

/-- Reads a file. -/
def readFile (path : String) : IO (Except FileError (Array UInt8)) := do
  try
    let bytes ← IO.FS.readBinFile path
    return .ok bytes.data
  catch e => return .error (fileError e)

/-- Prints an outcome. -/
def emit (outcome : Outcome) : IO UInt32 := do
  IO.print outcome.stdout
  IO.eprint outcome.stderr
  return outcome.exitCode

end GameBoy.Main

open GameBoy CommandLine Main in
/-- The entry point. -/
def main (arguments : List String) : IO UInt32 := do
  match plan arguments with
  | .stop outcome => emit outcome
  | .run path options =>
    let contents ← readFile path
    let level := (← IO.getEnv "GAMEBOY_LOG").bind levelOfName?
    if level.isSome then
      for r in Record.upTo level (finishJournal path options contents) do
        IO.eprintln s!"[{r.level.name}] {r.message}"
    emit (finish path options contents)
