import ReversePolish.Batch

/-!
# ReversePolish.Transcript

What a program run leaves behind: its **output**, its exit code, what it broke
off at, and its log.

Transcripts are put together one after the other; a run that breaks off has no
continuation, and its exit code is 1.
-/

namespace ReversePolish

/-- What a run leaves behind. -/
structure Transcript where
  output : Text
  exitCode : Nat
  crash : Option Crash
  log : List LogEvent
  deriving Repr, DecidableEq

namespace Transcript

/-- A run that does nothing. -/
def empty : Transcript := ⟨[], 0, none, []⟩

/-- A run that only prints. -/
def printing (output : Text) : Transcript := { empty with output }

/-- A run that breaks off. -/
def broken (crash : Crash) (log : List LogEvent) : Transcript := ⟨[], 1, some crash, log⟩

/-- One run and, unless it breaks off, another. -/
def andThen (first second : Transcript) : Transcript :=
  if first.crash.isSome then first
  else
    { output := first.output ++ second.output
      exitCode := max first.exitCode second.exitCode
      crash := second.crash
      log := first.log ++ second.log }

/-- Runs one after the other. -/
def inOrder (runs : List Transcript) : Transcript := runs.foldr andThen empty

@[simp] theorem inOrder_nil : inOrder [] = empty := rfl

@[simp] theorem inOrder_cons (run : Transcript) (rest : List Transcript) :
    inOrder (run :: rest) = run.andThen (inOrder rest) := rfl

@[simp] theorem empty_andThen (run : Transcript) : empty.andThen run = run := by
  simp [andThen, empty]

@[simp] theorem printing_andThen (output : Text) (run : Transcript) :
    (printing output).andThen run = { run with output := output ++ run.output } := by
  simp [andThen, printing, empty]

/-- Where a run breaks off, it makes no difference how what follows is grouped. -/
theorem andThen_assoc (first second third : Transcript) :
    (first.andThen second).andThen third = first.andThen (second.andThen third) := by
  unfold andThen
  cases hfirst : first.crash with
  | some crash => simp [hfirst]
  | none =>
    cases hsecond : second.crash with
    | some crash => simp [hsecond]
    | none => simp [List.append_assoc, Nat.max_assoc]

theorem inOrder_append (runs others : List Transcript) :
    inOrder (runs ++ others) = (inOrder runs).andThen (inOrder others) := by
  induction runs with
  | nil => simp
  | cons run rest ih => rw [List.cons_append, inOrder_cons, ih, inOrder_cons, andThen_assoc]

/-- A run that evaluates an expression and goes on with its outcome. -/
def evaluating (expression : Text) (skipEmpty : Bool) (next : Outcome → Transcript) : Transcript :=
  let logged := evaluateLogged expression skipEmpty
  match logged.result with
  | .error literal => broken (.overlong literal) logged.log
  | .ok outcome => { next outcome with log := logged.log ++ (next outcome).log }

end Transcript

end ReversePolish
