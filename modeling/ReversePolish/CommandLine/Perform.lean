import ReversePolish.CommandLine.Console
import ReversePolish.CommandLine.Request
import ReversePolish.Demonstration
import ReversePolish.Transcript

/-!
# ReversePolish.CommandLine.Perform

What the **commands** do.

`eval` reports one expression after the other, and its exit code tells whether
all had a value. `file` reads the whole file before it reports anything, and
its exit code tells only whether the file could be read. `demo` always ends
with code 0.
-/

namespace ReversePolish

/-- The style of a report. -/
def Style.of (outcome : Outcome) : Style := if outcome.isSuccess then .green else .red

/-- What is shown of a file that cannot be read. -/
def unreadableMarkup : Text := "[red]Error: Unable to read file.[/red]".toList

namespace Command

section

variable (console : Console)

/-- A report on the console. -/
def display (expression : Text) (outcome : Outcome) : Transcript :=
  .printing (console.printText (.of outcome) (outcome.report expression))

/-- Evaluate and report an expression; a failure has exit code 1. -/
def evalOne (skipEmpty : Bool) (expression : Text) : Transcript :=
  .evaluating expression skipEmpty fun outcome =>
    { display console expression outcome with exitCode := if outcome.isSuccess then 0 else 1 }

/-- Evaluate and report expressions. -/
def evalAll (skipEmpty : Bool) (expressions : List Text) : Transcript :=
  .inOrder (expressions.map (evalOne console skipEmpty))

/-- Evaluate and report the demonstration expressions. -/
def showDemonstration (skipEmpty : Bool) : Transcript :=
  .inOrder (demonstration.map fun expression =>
    .evaluating expression skipEmpty (display console expression))

/-- The line above the results of a file. -/
def heading : Transcript := .printing (console.printMarkup fileHeading)

/-- The output of `file` for what became of the batch. -/
def fileOutput : Except BatchError (List BatchEntry) → Transcript
  | .ok entries =>
    .inOrder (heading console ::
      entries.map fun entry => display console entry.expression entry.outcome)
  | .error (.unreadable _ _) =>
    (heading console).andThen
      { Transcript.printing (console.printMarkup unreadableMarkup) with exitCode := 2 }
  | .error (.crashed crash) => (heading console).andThen (.broken crash [])

/-- Evaluate and report the lines of a file. -/
def showFile (open? : Text → Except OpenFault (List UInt8)) (skipEmpty : Bool) (path : Text) :
    Transcript :=
  let batch := evaluateSource open? (.path (Path.normalize path)) skipEmpty
  { fileOutput console batch.result with log := batch.log }

/-- What a command does, where `open?` opens files. -/
def perform (open? : Text → Except OpenFault (List UInt8)) (settings : Settings) :
    Command → Transcript
  | eval expressions => evalAll console settings.skipEmpty expressions
  | file path => showFile console open? settings.skipEmpty path
  | demo => showDemonstration console settings.skipEmpty

end

end Command

end ReversePolish
