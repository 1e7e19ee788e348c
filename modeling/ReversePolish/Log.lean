import ReversePolish.Text.Abbreviated
import ReversePolish.Text.Decimal

/-!
# ReversePolish.Log

The **log**: what the calculator notes while it works, as events. Who notes an
event, how grave it is and how it is worded all follow from the event.
-/

namespace ReversePolish

/-- Something worth noting. -/
inductive LogEvent
  /-- An expression has no value. -/
  | evaluationFailed (expression detail : Text)
  /-- A batch came to its end. -/
  | batchEvaluated (count : Nat) (source : Text)
  /-- A batch was given up, because its source could not be read. -/
  | sourceUnreadable (source reason : Text)
  deriving Repr, DecidableEq

/-- How grave an event is. -/
inductive LogLevel
  | debug
  | info
  | error
  deriving Repr, DecidableEq

/-- The part of the calculator that notes an event. -/
inductive LogOrigin
  | evaluation
  | batch
  deriving Repr, DecidableEq

namespace LogEvent

/-- How grave an event is: a failure of one expression is no more than detail. -/
def level : LogEvent → LogLevel
  | evaluationFailed .. => .debug
  | batchEvaluated .. => .info
  | sourceUnreadable .. => .error

/-- Who notes an event. -/
def origin : LogEvent → LogOrigin
  | evaluationFailed .. => .evaluation
  | batchEvaluated .. => .batch
  | sourceUnreadable .. => .batch

/-- The wording of an event. An expression is abbreviated, a source is not. -/
def message : LogEvent → Text
  | evaluationFailed expression detail =>
    "Evaluation of ".toList ++ Text.abbreviate expression ++ " failed: ".toList ++ detail
  | batchEvaluated count source =>
    "Evaluated ".toList ++ Text.natural count ++ " expression(s) from ".toList ++ source
  | sourceUnreadable source reason =>
    "Unable to read ".toList ++ source ++ ": ".toList ++ reason

end LogEvent

/-- A result and the events noted on the way to it, in order. -/
structure Logged (α : Type) where
  result : α
  log : List LogEvent
  deriving Repr, DecidableEq

end ReversePolish
