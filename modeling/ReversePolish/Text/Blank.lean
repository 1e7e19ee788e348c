import ReversePolish.Text.Basic

/-!
# ReversePolish.Text.Blank

**White space**: the characters that separate the lexemes of an expression.

The set is the whole of Unicode white space and the four separators of the
control block, U+001C to U+001F. It leaves out characters that merely look
empty, such as U+200B and U+FEFF.
-/

namespace ReversePolish.Text

/-- Whether a character is white space. -/
def isBlank (c : Char) : Bool :=
  let n := c.toNat
  (0x09 ≤ n && n ≤ 0x0d) || (0x1c ≤ n && n ≤ 0x20) || n == 0x85 || n == 0xa0 ||
    n == 0x1680 || (0x2000 ≤ n && n ≤ 0x200a) || n == 0x2028 || n == 0x2029 ||
    n == 0x202f || n == 0x205f || n == 0x3000

/-- A digit is no white space, so a literal is never cut. -/
theorem isBlank_of_isDigit {c : Char} (h : c.isDigit = true) : isBlank c = false := by
  simp only [Char.isDigit, Bool.and_eq_true, decide_eq_true_eq, ge_iff_le,
    UInt32.le_iff_toNat_le] at h
  have low : 48 ≤ c.toNat := h.1
  have high : c.toNat ≤ 57 := h.2
  simp [isBlank]
  omega

/-- Whether a text holds white space. -/
def hasBlank (text : Text) : Bool := text.any isBlank

@[simp] theorem hasBlank_nil : hasBlank [] = false := rfl

@[simp] theorem hasBlank_cons (c : Char) (text : Text) :
    hasBlank (c :: text) = (isBlank c || hasBlank text) := rfl

@[simp] theorem hasBlank_append (s t : Text) : hasBlank (s ++ t) = (hasBlank s || hasBlank t) := by
  simp [hasBlank]

end ReversePolish.Text
