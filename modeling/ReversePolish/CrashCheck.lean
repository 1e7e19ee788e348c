import ReversePolish.Transcript

/-!
# ReversePolish.CrashCheck

The **crash check**: it evaluates expressions and tells only of those that have
no outcome at all. Such an expression does not end the check.
-/

namespace ReversePolish.CrashCheck

/-- What is told of an expression without an outcome. -/
def crashReport (expression : Text) (literal : Overlong) : Text :=
  Text.quote expression ++ "\ncrashed: ValueError(".toList ++ Text.quote literal.message ++
    ")\n\n\n".toList

/-- What is told of an expression. -/
def check (expression : Text) : Transcript :=
  match evaluate expression false with
  | .ok outcome => { Transcript.empty with log := outcome.log expression }
  | .error literal => .printing (crashReport expression literal)

/-- The check of some expressions. -/
def run (expressions : List Text) : Transcript := .inOrder (expressions.map check)

end ReversePolish.CrashCheck
