import ReversePolish.Text.Basic

/-!
# ReversePolish.Source.Lines

The **lines** of a text.

Only a line feed, a carriage return, or the two in that order end a line; no
other character does, whatever it looks like. A convention says which of them
do, and whether a line end is handed on as it stands or as a line feed.

Design points:

* A line keeps its end. What follows the last line end is a line too, unless it
  is empty, so a text that ends in a line end has no further line.
* `Lines` keeps the complete lines apart from the rest, because a reader that
  is stopped gives out the complete ones only.
-/

namespace ReversePolish

/-- Which line ends count. -/
inductive LineConvention
  /-- All three, each handed on as a line feed. -/
  | universal
  /-- All three, handed on as they stand. -/
  | universalKept
  /-- The line feed. -/
  | lineFeed
  /-- The carriage return. -/
  | carriageReturn
  /-- A carriage return and a line feed. -/
  | carriageReturnLineFeed
  deriving Repr, DecidableEq

namespace LineConvention

/-- Whether a single character ends a line. -/
def endsLine : LineConvention → Char → Bool
  | universal, c => c == '\n' || c == '\r'
  | universalKept, c => c == '\n' || c == '\r'
  | lineFeed, c => c == '\n'
  | carriageReturn, c => c == '\r'
  | carriageReturnLineFeed, _ => false

/-- Whether a carriage return and a line feed are one line end. -/
def joinsPair : LineConvention → Bool
  | universal => true
  | universalKept => true
  | carriageReturnLineFeed => true
  | _ => false

/-- Whether a carriage return at the end of the text known so far may turn out
to be the first half of a line end. -/
def holdsBack : LineConvention → Bool
  | universal => true
  | universalKept => true
  | _ => false

/-- A line end as it is handed on. -/
def handedOn : LineConvention → Text → Text
  | universal, _ => ['\n']
  | _, lineEnd => lineEnd

end LineConvention

/-- The lines of a text. -/
structure Lines where
  /-- The lines that have an end. -/
  complete : List Text
  /-- What follows the last line end. -/
  rest : Text
  deriving Repr, DecidableEq

namespace Lines

/-- One more complete line in front. -/
def cons (line : Text) (lines : Lines) : Lines := { lines with complete := line :: lines.complete }

/-- The lines of a text, of whose first line `begun` is known, its last
character first. -/
def split (convention : LineConvention) (begun : Text) : Text → Lines
  | [] => ⟨[], begun.reverse⟩
  | [c] =>
    if convention.endsLine c then ⟨[begun.reverse ++ convention.handedOn [c]], []⟩
    else ⟨[], (c :: begun).reverse⟩
  | c :: d :: rest =>
    if convention.joinsPair && c == '\r' && d == '\n' then
      cons (begun.reverse ++ convention.handedOn [c, d]) (split convention [] rest)
    else if convention.endsLine c then
      cons (begun.reverse ++ convention.handedOn [c]) (split convention [] (d :: rest))
    else split convention (c :: begun) (d :: rest)

/-- The lines of a text. -/
def of (convention : LineConvention) (text : Text) : Lines := split convention [] text

/-- All lines, the last of which may lack its end. -/
def all (lines : Lines) : List Text :=
  if lines.rest.isEmpty then lines.complete else lines.complete ++ [lines.rest]

/-- The complete lines of a text that is known to go on. -/
def soFar (convention : LineConvention) (text : Text) : List Text :=
  if convention.holdsBack && text.getLast? == some '\r' then (of convention text.dropLast).complete
  else (of convention text).complete

end Lines

/-- A line without the line ends behind it. -/
def stripLineEnd (line : Text) : Text :=
  (line.reverse.dropWhile fun c => c == '\n' || c == '\r').reverse

end ReversePolish
