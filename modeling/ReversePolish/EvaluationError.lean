import ReversePolish.Fault

/-!
# ReversePolish.EvaluationError

A failure **located** in its expression, and how it is shown: the message, an
excerpt of the expression, and a line of carets under the lexeme in question.

Design points:

* The excerpt keeps twenty code points on either side of the marked span and
  puts dots where something was left out, so it is short for an expression of
  any length.
* The marker is as wide as the lexeme, at least one caret and at most forty.
* Line ends of the expression stay as they are, also inside the excerpt.
-/

namespace ReversePolish

/-- A place in an expression. -/
structure Location where
  expression : Text
  position : Int
  deriving Repr, DecidableEq

/-- A failure and the place where it was found. -/
structure EvaluationError where
  diagnostic : Diagnostic
  location : Location
  deriving Repr, DecidableEq

/-! ### Excerpts -/

/-- The part of an expression that is shown, and the column of the marked
span in it. -/
structure Excerpt where
  text : Text
  column : Int
  deriving Repr, DecidableEq

/-- The code points that an excerpt keeps on either side of the marked span. -/
def excerptMargin : Nat := 20

/-- What stands for a part that an excerpt leaves out. -/
def omission (isOmitted : Bool) : Text := if isOmitted then Text.ellipsis else []

/-- The excerpt around the span of `width` code points at a location. -/
def Location.excerpt (location : Location) (width : Int) : Excerpt :=
  let length : Int := location.expression.length
  let start := max 0 (location.position - excerptMargin)
  let stop := min length (location.position + width + excerptMargin)
  let before := omission (0 < start)
  { text := before ++ Text.slice start stop location.expression ++ omission (stop < length)
    column := location.position - start + before.length }

/-! ### The shown form -/

/-- The widest marker. -/
def markerLimit : Nat := 40

/-- The number of carets that mark a lexeme, or the place of a failure that has
no lexeme. -/
def Diagnostic.markerWidth (diagnostic : Diagnostic) : Nat :=
  min (max 1 (diagnostic.token.getD []).length) markerLimit

/-- The message, the excerpt and the carets, each on a line of its own. -/
def EvaluationError.render (error : EvaluationError) : Text :=
  let width := error.diagnostic.markerWidth
  let excerpt := error.location.excerpt width
  "[Evaluation error] ".toList ++ error.diagnostic.detail ++ ['\n'] ++ excerpt.text ++ ['\n'] ++
    Text.run ' ' excerpt.column ++ Text.run '^' width

end ReversePolish
