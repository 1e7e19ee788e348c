import ReversePolish.Log
import ReversePolish.Machine

/-!
# ReversePolish.Evaluation

The **outcome** of an expression: its value, or why it has none.

`evaluate` is the calculator's main function. A failure becomes an outcome; a
number with too many digits is no failure, and then there is none (`Overlong`).
Outcomes are compared by their `verdict`, which leaves out where a failure was
found.
-/

namespace ReversePolish

/-- Why an expression has no value, and where that showed. -/
structure Failure where
  diagnostic : Diagnostic
  /-- The place of the failure, if it came from an expression. -/
  location : Option Location
  deriving Repr, DecidableEq

/-- The outcome of an expression. -/
inductive Outcome
  | success (value : Int)
  | failure (reason : Failure)
  deriving Repr, DecidableEq

/-- The located form of a failure; without an expression it is at the start of
an empty one. -/
def Failure.error (failure : Failure) : EvaluationError :=
  ⟨failure.diagnostic, failure.location.getD ⟨[], 0⟩⟩

namespace Outcome

/-- The outcome that an evaluation comes to, unless it came to none. -/
def ofResult : Except NoValue Int → Except Overlong Outcome
  | .ok value => .ok (success value)
  | .error (.failed error) => .ok (failure ⟨error.diagnostic, some error.location⟩)
  | .error (.untold overlong) => .error overlong

/-- Whether there is a value. -/
def isSuccess : Outcome → Bool
  | success _ => true
  | failure _ => false

/-- The value, or else the error with its place. -/
def unwrap : Outcome → Except EvaluationError Int
  | success value => .ok value
  | failure reason => .error reason.error

/-- What outcomes are compared by: the value or the diagnostic. -/
def verdict : Outcome → Except Diagnostic Int
  | success value => .ok value
  | failure reason => .error reason.diagnostic

/-- Whether two outcomes count as the same: equal values or equal diagnostics,
wherever the failures were found. -/
def agrees : Outcome → Outcome → Bool
  | success value, success value' => value == value'
  | failure reason, failure reason' => reason.diagnostic == reason'.diagnostic
  | _, _ => false

theorem agrees_iff {a b : Outcome} : a.agrees b = true ↔ a.verdict = b.verdict := by
  cases a <;> cases b <;> simp [agrees, verdict]

/-- The line that reports the outcome of an expression. -/
def report (expression : Text) : Outcome → Text
  | success value => "Result: ".toList ++ expression ++ " = ".toList ++ Text.decimal value
  | failure reason =>
    "Evaluation failed for expression: ".toList ++ expression ++ " (".toList ++
      reason.diagnostic.kind.name ++ ": ".toList ++ reason.diagnostic.detail ++ [')']

/-- What is noted about the outcome of an expression. -/
def log (expression : Text) : Outcome → List LogEvent
  | success _ => []
  | failure reason => [.evaluationFailed expression reason.diagnostic.detail]

/-- An outcome gives back the result that it came from. -/
theorem unwrap_of_ofResult {result : Except NoValue Int} {outcome : Outcome}
    (h : ofResult result = .ok outcome) : outcome.unwrap.mapError .failed = result := by
  unfold ofResult at h
  split at h <;> cases h <;> rfl

end Outcome

/-! ### Evaluation -/

/-- The outcome of an expression, unless a number in it has too many digits. -/
def evaluate (expression : Text) (skipEmpty : Bool) : Except Overlong Outcome :=
  (tokenize expression skipEmpty).bind fun tokens =>
    Outcome.ofResult (evaluateTokens tokens expression)

/-- The outcome of an expression with what is noted about it. Where there is no outcome,
nothing is noted. -/
def evaluateLogged (expression : Text) (skipEmpty : Bool) : Logged (Except Overlong Outcome) :=
  match evaluate expression skipEmpty with
  | .ok outcome => ⟨.ok outcome, outcome.log expression⟩
  | .error overlong => ⟨.error overlong, []⟩

end ReversePolish
