import ReversePolish.Text.Printable

/-!
# ReversePolish.Text.Quoted

**Quoted texts**: how a message shows a piece of input.

A quoted text stands between two marks and is printable throughout, whatever
the text holds, so that a message is always one line. Apostrophes mark it,
unless the text itself holds an apostrophe and no quotation mark. The mark in
use and the backslash are escaped by a backslash, the tabulator and the two
line ends by their letters, and any other character that is not printable by
its code point in hexadecimal digits.
-/

namespace ReversePolish.Text

/-- The mark around most quoted texts. -/
def apostrophe : Char := '\x27'

/-- The mark around a text with apostrophes. -/
def quotationMark : Char := '\x22'

/-- The character that starts an escape. -/
def backslash : Char := '\x5c'

/-- The last `width` hexadecimal digits of a number, in lower case. -/
def hexadecimal : (width : Nat) → Nat → Text
  | 0, _ => []
  | width + 1, n => hexadecimal width (n / 16) ++ [Nat.digitChar (n % 16)]

@[simp] theorem length_hexadecimal (width n : Nat) : (hexadecimal width n).length = width := by
  induction width generalizing n with
  | zero => rfl
  | succ width ih => simp [hexadecimal, ih]

/-- A code point by its hexadecimal digits: two, four or eight of them, as few
as hold it. -/
def escapeCodePoint (n : Nat) : Text :=
  if n < 0x100 then backslash :: 'x' :: hexadecimal 2 n
  else if n < 0x10000 then backslash :: 'u' :: hexadecimal 4 n
  else backslash :: 'U' :: hexadecimal 8 n

/-- How a character is written between two `mark`s. -/
def escape (mark c : Char) : Text :=
  if c = mark ∨ c = backslash then [backslash, c]
  else if c = '\t' then [backslash, 't']
  else if c = '\n' then [backslash, 'n']
  else if c = '\r' then [backslash, 'r']
  else if isPrintable c then [c]
  else escapeCodePoint c.toNat

/-- The mark to put around a text. -/
def markFor (text : Text) : Char :=
  if text.contains apostrophe && !text.contains quotationMark then quotationMark else apostrophe

/-- The quoted form of a text. -/
def quote (text : Text) : Text :=
  markFor text :: text.flatMap (escape (markFor text)) ++ [markFor text]

/-- Two code points more than the escaped characters take. -/
theorem length_quote (text : Text) :
    (quote text).length = (text.flatMap (escape (markFor text))).length + 2 := by
  simp [quote]

end ReversePolish.Text
