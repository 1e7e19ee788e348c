import ReversePolish.Text.Quoted

/-!
# ReversePolish.Text.Abbreviated

**Abbreviated quotation**: a quoted text in at most forty code points.

A text whose quoted form is longer is shown by the first eighteen code points
of a quotation of its two ends, three dots, and the last nineteen. The cut is
made on the quoted form, so it may fall inside an escape.

Design points:

* The two ends are taken from the text before they are quoted, so a text of any
  length is quoted in bounded work.
* The tail is a slice that starts nineteen code points before the end. For a
  text of fewer than nineteen that start is negative and counts from the end
  once more, so the tail may repeat a part of the head.
-/

namespace ReversePolish.Text

/-- The most code points that an abbreviated quotation takes. -/
def quotationLimit : Nat := 40

/-- The code points that a cut keeps from the start of a quotation. -/
def keptHead : Nat := 18

/-- The code points that a cut keeps from the end of a quotation. -/
def keptTail : Nat := 19

/-- What stands in place of the part that was cut out. -/
def ellipsis : Text := "...".toList

/-- The two ends of a text that is too long to be quoted whole. -/
def ends (text : Text) : Text :=
  text.take keptHead ++ slice (text.length - keptTail) text.length text

/-- The first and the last code points of a quotation, with dots between. -/
def cutMiddle (quotation : Text) : Text :=
  quotation.take keptHead ++ ellipsis ++ quotation.drop (quotation.length - keptTail)

/-- The quoted form of a text, cut to at most forty code points. -/
def abbreviate (text : Text) : Text :=
  let whole := quote (text.take quotationLimit)
  if whole.length ≤ quotationLimit then whole else cutMiddle (quote (ends text))

end ReversePolish.Text
