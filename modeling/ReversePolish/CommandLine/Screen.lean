import ReversePolish.CommandLine.Console

/-!
# ReversePolish.CommandLine.Screen

The calculator's own **console**. It shows no styles, so the tags of a markup
are left out, and it knows no codes.
-/

namespace ReversePolish.Screen

/-- The columns that a character takes: none for a control character. -/
def columns (c : Char) : Nat :=
  if c.toNat < 0x20 || (0x7f ≤ c.toNat && c.toNat ≤ 0x9f) then 0 else 1

/-- A markup without its tags, where the start of it may be inside one. -/
def dropTags (inTag : Bool) : Text → Text
  | [] => []
  | c :: rest =>
    if inTag then dropTags (c != ']') rest
    else if c = '[' then dropTags true rest
    else c :: dropTags false rest

/-- What is shown of a text: its layout, and a line end. -/
def print (text : Text) : Text := laidOut columns text ++ ['\n']

/-- The console. -/
def console : Console where
  columns := columns
  printText _ text := print text
  printMarkup markup := print (dropTags false markup)

end ReversePolish.Screen
