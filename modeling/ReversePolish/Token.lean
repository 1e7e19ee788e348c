import ReversePolish.Layout
import ReversePolish.Literal
import ReversePolish.Operator

/-!
# ReversePolish.Token

**Tokens**: lexemes with a position and a meaning.

A lexeme that reads as a word is an operand, an operator's symbol is that
operator, and anything else is unknown; a sign alone is an operator, because a
literal needs a digit. Only reading a number can fail, and it fails before any
token is evaluated: `tokenize` gives all tokens of an expression or none.

Design points:

* `Token` does not tie its meaning to its lexeme. A token list put together by
  hand may disagree with itself, and the machine reads each field as it stands.
* A position is an integer, so that it may be any that such a list carries.
-/

namespace ReversePolish

/-- What a token does. -/
inductive Meaning
  /-- It pushes a value. -/
  | operand (value : Int)
  /-- It combines the two topmost values. -/
  | operator (op : Operator)
  /-- It is refused. -/
  | unknown
  deriving Repr, DecidableEq

/-- A lexeme with its position and its meaning. -/
structure Token where
  lexeme : Text
  start : Int
  meaning : Meaning
  deriving Repr, DecidableEq

/-- The meaning of a lexeme. -/
def Meaning.ofLexeme (lexeme : Text) : Except Overlong Meaning :=
  match Literal.read lexeme with
  | .error overlong => .error overlong
  | .ok (some value) => .ok (operand value)
  | .ok none =>
    match Operator.ofLexeme? lexeme with
    | some op => .ok (operator op)
    | none => .ok unknown

namespace Token

/-- The token of a lexeme at a position. -/
def classify (lexeme : Text) (start : Int) : Except Overlong Token :=
  (Meaning.ofLexeme lexeme).map fun meaning => ⟨lexeme, start, meaning⟩

/-- The token of a piece of an expression. -/
def ofPiece (piece : Piece) : Except Overlong Token := classify piece.text piece.start

/-- The entry of a token in a listing. -/
def label (token : Token) : Text :=
  let tag := match token.meaning with
    | .operand _ => "<OPERAND>".toList
    | .operator op => '<' :: op.name ++ ['>']
    | .unknown => "<UNKNOWN>".toList
  tag ++ token.lexeme

end Token

/-- The pieces that become tokens: all of them, or all but the empty ones. -/
def keptPieces (expression : Text) (skipEmpty : Bool) : List Piece :=
  if skipEmpty then (pieces expression).filter fun piece => !piece.text.isEmpty
  else pieces expression

/-- The tokens of an expression. -/
def tokenize (expression : Text) (skipEmpty : Bool) : Except Overlong (List Token) :=
  (keptPieces expression skipEmpty).mapM Token.ofPiece

end ReversePolish
