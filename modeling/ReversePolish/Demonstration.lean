import ReversePolish.Text.Basic

/-!
# ReversePolish.Demonstration

The expressions with which the calculator shows what it does, and the line that
it puts above the results of a file.
-/

namespace ReversePolish

/-- The demonstration expressions. -/
def demonstration : List Text :=
  ["23 4 * 5 +", "55 9 + 7 *", "92 2 % 4 +", "93 8 - 9 +", "76 9 % 2 -", "8 2 / -", "30 0 / 8 +",
    "45 0 % 9 -"].map String.toList

/-- The line above the results of a file. -/
def fileHeading : Text := "These are the expressions from the saved file.".toList

end ReversePolish
