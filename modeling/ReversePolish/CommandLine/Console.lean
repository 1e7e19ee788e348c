import ReversePolish.Text.Basic

/-!
# ReversePolish.CommandLine.Console

What the commands rely on to put texts on a **console**.

A text is laid out before it is shown: control characters that would move the
cursor are left out and tabulators become spaces, so that one text is shown
below the other.

Design points:

* Which columns a character takes is up to the console, and only tabulators
  depend on it. A text of printable characters is laid out as it stands
  (`laidOut_of_printable`).
* A console is taken to be wide enough for every line and to show no colours.
  A style then makes no difference (`Console.PrintsTexts`).
-/

namespace ReversePolish

/-! ### Layout -/

/-- The distance of the tabulator stops. -/
def tabWidth : Nat := 8

/-- Bell, backspace, vertical tabulator, form feed and carriage return. -/
def isLeftOut (c : Char) : Bool :=
  c == '\x07' || c == '\x08' || c == '\x0b' || c == '\x0c' || c == '\x0d'

/-- A text from a given column on, with spaces up to the next stop for every
tabulator, where characters take some columns each. -/
def expandTabs (columns : Char → Nat) (column : Nat) : Text → Text
  | [] => []
  | c :: rest =>
    if c = '\t' then
      let gap := tabWidth - column % tabWidth
      List.replicate gap ' ' ++ expandTabs columns (column + gap) rest
    else if c = '\n' then c :: expandTabs columns 0 rest
    else c :: expandTabs columns (column + columns c) rest

/-- A text as it is laid out. -/
def laidOut (columns : Char → Nat) (text : Text) : Text :=
  expandTabs columns 0 (text.filter fun c => !isLeftOut c)

/-- A text without tabulators is not expanded. -/
theorem expandTabs_of_no_tab (columns : Char → Nat) {text : Text} (h : ∀ c ∈ text, c ≠ '\t')
    (column : Nat) : expandTabs columns column text = text := by
  induction text generalizing column with
  | nil => rfl
  | cons c rest ih =>
    obtain ⟨hc, hrest⟩ := List.forall_mem_cons.1 h
    rw [expandTabs, if_neg hc]
    split <;> rw [ih hrest]

/-- A text is laid out as it stands if there is nothing in it to leave out or to expand. -/
theorem laidOut_of_printable (columns : Char → Nat) {text : Text}
    (h : ∀ c ∈ text, isLeftOut c = false ∧ c ≠ '\t') : laidOut columns text = text := by
  have hkept : text.filter (fun c => !isLeftOut c) = text :=
    List.filter_eq_self.2 fun c hmem => by rw [(h c hmem).1]; rfl
  rw [laidOut, hkept, expandTabs_of_no_tab columns fun c hmem => (h c hmem).2]

/-! ### Consoles -/

/-- How a text is to look. -/
inductive Style
  | green
  | red
  deriving Repr, DecidableEq

/-- A console, by what it shows. -/
structure Console where
  /-- The columns that a character takes. -/
  columns : Char → Nat
  /-- What is shown of a text that is to be printed as it stands. -/
  printText : Style → Text → Text
  /-- What is shown of a text with tags in square brackets and with codes between colons. -/
  printMarkup : Text → Text

/-- Whether a console prints texts. -/
structure Console.PrintsTexts (console : Console) : Prop where
  /-- A text is laid out, whatever is in it, with a line end behind it. -/
  text : ∀ style text, console.printText style text = laidOut console.columns text ++ ['\n']
  /-- So is a markup, if it has no tags and no codes. -/
  markup : ∀ text, (∀ c ∈ text, c ≠ '[' ∧ c ≠ ':') →
    console.printMarkup text = laidOut console.columns text ++ ['\n']

end ReversePolish
