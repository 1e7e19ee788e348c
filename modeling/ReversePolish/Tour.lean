import ReversePolish.Demonstration
import ReversePolish.Transcript

/-!
# ReversePolish.Tour

The **tour**: expressions with the tokens that they are cut into and their
outcomes, followed by the expressions of a file in the working folder.
-/

namespace ReversePolish.Tour

/-- The expressions that the tour shows. -/
def expressions : List Text :=
  demonstration ++ ["23*4-", "5 3 ^", "", "1  2 +"].map String.toList

/-- The file whose expressions follow. -/
def fileName : Text := "expressions.txt".toList

/-- A line of the tour. -/
def line (text : Text) : Transcript := .printing (text ++ ['\n'])

/-- The line between two parts of the tour. -/
def rule : Transcript := line (List.replicate 10 '=')

/-- The tokens of an expression in one line. -/
def listing (tokens : List Token) : Text := [' '].intercalate (tokens.map Token.label)

/-- The outcome of an expression, and where a failure was found. -/
def showOutcome (expression : Text) (outcome : Outcome) : Transcript :=
  (line (outcome.report expression)).andThen
    (match outcome with
      | .success _ => .empty
      | .failure reason => line reason.error.render)

/-- An expression, its tokens and its outcome. -/
def exhibit (expression : Text) : Transcript :=
  .inOrder
    [rule,
      line ("expression: ".toList ++ Text.quote expression),
      line ("tokenizer: ".toList ++ (Layout.of expression).name),
      match tokenize expression false with
      | .error literal => .broken (.overlong literal) []
      | .ok tokens => line ("tokens: ".toList ++ listing tokens),
      .evaluating expression false (showOutcome expression)]

/-- What became of the file. -/
def fileOutput : Except BatchError (List BatchEntry) → Transcript
  | .ok entries => .inOrder (entries.map fun entry => line entry.report)
  | .error (.crashed crash) => .broken crash []
  | .error reason => line reason.message

/-- The whole tour, where `open?` opens files. -/
def run (open? : Text → Except OpenFault (List UInt8)) : Transcript :=
  let batch := evaluateSource open? (.path fileName) false
  .inOrder
    (expressions.map exhibit ++
      [rule, line fileHeading, { fileOutput batch.result with log := batch.log }])

end ReversePolish.Tour
