import ReversePolish.Literal
import ReversePolish.Text.Abbreviated

/-!
# ReversePolish.Fault

Why an expression has no value.

A `Fault` is the cause, with what it is about. A `Diagnostic` is what is told
of it: a kind, a line of text and the lexeme in question. Two failures count as
the same when their diagnostics agree, wherever they were found.

Design points:

* `insufficientOperands` quotes its lexeme whole, and `divisionByZero` shows it
  unquoted: both are about an operator. The two faults of a lexeme that is no
  operator abbreviate it, because it may be of any length.
* A diagnostic is what a fault says; `tell` is what becomes of saying it. A dividend
  is written under the limit of all numbers, so a fault may have a diagnostic that
  cannot be told. The other numbers of a message count values.
-/

namespace ReversePolish

/-- The kinds of failure. -/
inductive FaultKind
  | insufficientOperands
  | divisionByZero
  | unknownOperator
  | malformedExpression
  deriving Repr, DecidableEq

/-- The name that a report gives. -/
def FaultKind.name : FaultKind → Text
  | insufficientOperands => "INSUFFICIENT_OPERANDS".toList
  | divisionByZero => "DIVISION_BY_ZERO".toList
  | unknownOperator => "UNKNOWN_OPERATOR".toList
  | malformedExpression => "MALFORMED_EXPRESSION".toList

/-- What is told of a failure. -/
structure Diagnostic where
  kind : FaultKind
  detail : Text
  /-- The lexeme in question, unless the failure is about the whole expression. -/
  token : Option Text
  deriving Repr, DecidableEq

/-- Why an expression has no value. -/
inductive Fault
  /-- An operator found fewer than two values. -/
  | insufficientOperands (lexeme : Text) (found : Nat)
  /-- An operator was to divide by zero. -/
  | divisionByZero (lexeme : Text) (dividend : Int)
  /-- A literal names no word. -/
  | outOfRange (lexeme : Text)
  /-- A lexeme is neither a literal nor an operator. -/
  | unknownOperator (lexeme : Text)
  /-- No value was left at the end, or more than one. -/
  | malformed (found : Nat)
  deriving Repr, DecidableEq

namespace Fault

/-- The kind of a fault. A literal out of range and a lexeme that is no literal
are of one kind; their texts tell them apart. -/
def kind : Fault → FaultKind
  | insufficientOperands .. => .insufficientOperands
  | divisionByZero .. => .divisionByZero
  | outOfRange _ => .unknownOperator
  | unknownOperator _ => .unknownOperator
  | malformed _ => .malformedExpression

/-- The lexeme that a fault is about. -/
def token : Fault → Option Text
  | insufficientOperands lexeme _ => some lexeme
  | divisionByZero lexeme _ => some lexeme
  | outOfRange lexeme => some lexeme
  | unknownOperator lexeme => some lexeme
  | malformed _ => none

/-- The range of words, as a message gives it. -/
def rangeText : Text :=
  '[' :: Text.decimal Word.least ++ ", ".toList ++ Text.decimal Word.greatest ++ [']']

/-- The line of text about a division by zero, with the dividend as it is written. -/
def divisionText (dividend lexeme : Text) : Text :=
  "Can't divide by zero: ".toList ++ dividend ++ [' '] ++ lexeme ++ " 0".toList

/-- The line of text that tells a fault, with a dividend of any length. -/
def detail : Fault → Text
  | insufficientOperands lexeme found =>
    "Not enough operands for ".toList ++ Text.quote lexeme ++
      ": expected 2, found ".toList ++ Text.natural found
  | divisionByZero lexeme dividend => divisionText (Text.decimal dividend) lexeme
  | outOfRange lexeme =>
    "Integer ".toList ++ Text.abbreviate lexeme ++ " is outside ".toList ++ rangeText
  | unknownOperator lexeme => "Unknown operator ".toList ++ Text.abbreviate lexeme
  | malformed found =>
    "Incorrect final stack size: expected 1 value, found ".toList ++ Text.natural found

/-- What a fault says. -/
def diagnostic (fault : Fault) : Diagnostic := ⟨fault.kind, fault.detail, fault.token⟩

/-- What is told of a fault, unless its dividend has too many digits to be written. -/
def tell (fault : Fault) : Except Overlong Diagnostic :=
  match fault with
  | divisionByZero lexeme dividend =>
    (Literal.write dividend).map fun written => ⟨fault.kind, divisionText written lexeme, lexeme⟩
  | _ => .ok fault.diagnostic

/-- Whether a fault can be told: a dividend has to be short enough. -/
def IsTellable (fault : Fault) : Prop :=
  ∀ lexeme dividend, fault = divisionByZero lexeme dividend →
    dividend.natAbs < Literal.tooLong Literal.digitLimit

theorem tell_of_isTellable {fault : Fault} (h : fault.IsTellable) :
    fault.tell = .ok fault.diagnostic := by
  cases fault with
  | divisionByZero lexeme dividend =>
    rw [tell, Literal.write_of_lt (h lexeme dividend rfl)]
    rfl
  | _ => rfl

theorem tell_of_not_isTellable {fault : Fault} (h : ¬ fault.IsTellable) :
    fault.tell = .error .integer := by
  cases fault with
  | divisionByZero lexeme dividend =>
    have hlong : Literal.tooLong Literal.digitLimit ≤ dividend.natAbs := by
      refine Nat.not_lt.1 fun hlt => h ?_
      rintro _ _ ⟨⟩
      exact hlt
    rw [tell, Literal.write_of_le hlong]
    rfl
  | _ => exact absurd nofun h

/-- Only a fault of the whole expression has no lexeme. -/
theorem token_eq_none_iff {fault : Fault} :
    fault.token = none ↔ fault.kind = .malformedExpression := by
  cases fault <;> simp [token, kind]

end Fault

end ReversePolish
