import ReversePolish.CommandLine.Arguments
import ReversePolish.CommandLine.Perform
import ReversePolish.CommandLine.Screen

/-!
# ReversePolish.Main

The calculator as a **program**: it reads its arguments and the file that they
name, and leaves everything else to `Request.ofArguments` and
`Command.perform`, which prints on `Screen.console`.
-/

namespace ReversePolish

/-- The usage page. -/
def usagePage : String :=
  "Usage: reverse-polish [--skip-empty] [--verbose|-v] COMMAND [ARGUMENTS]

Evaluate integer arithmetic in reverse Polish notation.

Options:
  --skip-empty    Drop empty tokens instead of rejecting them.
  --verbose, -v   Log evaluation details.
  --help          Show this page.

Commands:
  eval EXPRESSION...   Evaluate expressions.
  file PATH            Evaluate every line of a file.
  demo                 Run the demonstration expressions.
"

/-- The fault that an error of the operating system stands for. An item of the
wrong type is met on the way along the path, which is then named, or when it is
read. A file that cannot be read for any other reason is taken for a missing
one. -/
def openFaultOf : IO.Error → OpenFault
  | .inappropriateType (some _) _ _ => .notADirectory
  | .inappropriateType none _ _ => .isADirectory
  | .invalidArgument .. => .nameTooLong
  | _ => .noSuchFile

/-- The bytes of a file. -/
def readBytes (path : Text) : IO (Except OpenFault (List UInt8)) := do
  try
    return .ok (← IO.FS.readBinFile (String.ofList path)).toList
  catch error => return .error (openFaultOf error)

/-- The bytes of the file that a command names, if it names one. -/
def readFor : Command → IO (Except OpenFault (List UInt8))
  | .file path => readBytes (Path.normalize path)
  | _ => return .error .noSuchFile

/-- Whether an event is shown. -/
def isShown (settings : Settings) (event : LogEvent) : Bool :=
  settings.verbose || event.level == .error

/-- Print what a run leaves behind, the log and a crash apart from the rest. -/
def present (settings : Settings) (transcript : Transcript) : IO UInt32 := do
  IO.print (String.ofList transcript.output)
  for event in transcript.log.filter (isShown settings) do
    IO.eprintln (String.ofList event.message)
  match transcript.crash with
  | some crash => IO.eprintln (String.ofList crash.message)
  | none => pure ()
  return UInt32.ofNat transcript.exitCode

end ReversePolish

open ReversePolish in
/-- Do what the arguments ask for. -/
def main (arguments : List String) : IO UInt32 := do
  match Request.ofArguments (arguments.map String.toList) with
  | .help exitCode =>
    IO.print usagePage
    return UInt32.ofNat exitCode
  | .misuse =>
    IO.eprint usagePage
    return 2
  | .perform settings command =>
    let bytes ← readFor command
    present settings (command.perform Screen.console (fun _ => bytes) settings)
