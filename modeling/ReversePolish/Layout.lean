import ReversePolish.Text.Blank

/-!
# ReversePolish.Layout

The two **layouts** of an expression, and the pieces that each is cut into.

An expression with white space anywhere is *spaced*: every single white-space
character ends a piece, so two in a row, or one at either end, leave an empty
piece. An expression without any is *dense*: every character is a piece.

Design points:

* A piece carries the index at which it starts. In a spaced expression the
  index follows from the lengths of the pieces before it (`placed`), because
  exactly one character stands between two pieces.
-/

namespace ReversePolish

/-- A piece of an expression. -/
structure Piece where
  /-- What stands in the piece; it may be empty. -/
  text : Text
  /-- The index of its first code point. -/
  start : Nat
  deriving Repr, DecidableEq

/-- How the lexemes of an expression are told apart. -/
inductive Layout
  /-- White space separates the lexemes. -/
  | spaced
  /-- Every character is a lexeme. -/
  | dense
  deriving Repr, DecidableEq

/-! ### Pieces -/

/-- Pieces from `start` on, with one character between each two. -/
def placed (start : Nat) : List Text → List Piece
  | [] => []
  | text :: rest => ⟨text, start⟩ :: placed (start + text.length + 1) rest

@[simp] theorem placed_nil (start : Nat) : placed start [] = [] := rfl

@[simp] theorem placed_cons (start : Nat) (text : Text) (rest : List Text) :
    placed start (text :: rest) = ⟨text, start⟩ :: placed (start + text.length + 1) rest := rfl

@[simp] theorem map_text_placed (start : Nat) (texts : List Text) :
    (placed start texts).map Piece.text = texts := by
  induction texts generalizing start with
  | nil => rfl
  | cons text rest ih => simp [ih]

/-- The pieces between white-space characters. -/
def spacedPieces (expression : Text) : List Piece :=
  placed 0 (expression.splitOnP Text.isBlank)

/-- The single characters. -/
def densePieces (expression : Text) : List Piece :=
  expression.zipIdx.map fun (c, index) => ⟨[c], index⟩

namespace Layout

/-- The layout of an expression. -/
def of (expression : Text) : Layout := if expression.hasBlank then spaced else dense

/-- The name that a token listing gives. -/
def name : Layout → Text
  | spaced => "SpaceSplitTokenizer".toList
  | dense => "CharSplitTokenizer".toList

/-- The pieces of an expression in a given layout. -/
def pieces : Layout → Text → List Piece
  | spaced, expression => spacedPieces expression
  | dense, expression => densePieces expression

end Layout

/-- The pieces of an expression in its own layout. -/
def pieces (expression : Text) : List Piece := (Layout.of expression).pieces expression

end ReversePolish
