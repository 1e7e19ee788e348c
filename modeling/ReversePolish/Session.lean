import ReversePolish.Transcript

/-!
# ReversePolish.Session

The **session**: a prompt, an expression, its value or what is wrong with it,
and so on to the end of the input.

The prompt is also shown before the end of the input is met. Only the line feed
is no part of an expression, so a carriage return before it is.
-/

namespace ReversePolish.Session

/-- What is shown before an expression is read. -/
def prompt : Text := "> ".toList

/-- The lines of the input, the last of which may lack its line feed. -/
def inputLines (input : Text) : List Text :=
  let lines := input.splitOn '\n'
  if lines.getLast? = some [] then lines.dropLast else lines

/-- What is shown of an outcome. -/
def answer : Outcome → Text
  | .success value => Text.decimal value
  | .failure reason => reason.error.render

/-- One expression and its answer. -/
def exchange (expression : Text) : Transcript :=
  (Transcript.printing prompt).andThen
    (.evaluating expression false fun outcome => .printing (answer outcome ++ ['\n']))

/-- The session over an input. -/
def run (input : Text) : Transcript :=
  (Transcript.inOrder ((inputLines input).map exchange)).andThen (.printing prompt)

end ReversePolish.Session
