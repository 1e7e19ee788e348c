import ReversePolish.Text.Basic

/-!
# ReversePolish.Text.Decimal

The **decimal form** of an integer: a minus sign for a negative one, then its
digits with no leading zero.
-/

namespace ReversePolish.Text

/-- The decimal digits of a natural number. -/
def natural (n : Nat) : Text := Nat.toDigits 10 n

/-- The decimal form of an integer. -/
def decimal (value : Int) : Text :=
  if value < 0 then '-' :: natural value.natAbs else natural value.natAbs

/-- The digits read back as the number. -/
@[simp] theorem ofDigitChars_natural (n : Nat) : Nat.ofDigitChars 10 (natural n) 0 = n :=
  Nat.ofDigitChars_toDigits (by decide) (by decide)

/-- Only digits are written. -/
theorem isDigit_of_mem_natural {n : Nat} {c : Char} (h : c ∈ natural n) : c.isDigit = true :=
  Nat.isDigit_of_mem_toDigits (by decide) (by decide) h

theorem decimal_of_nonneg {value : Int} (h : 0 ≤ value) :
    decimal value = natural value.natAbs := by
  simp [decimal, Int.not_lt.mpr h]

theorem decimal_of_neg {value : Int} (h : value < 0) :
    decimal value = '-' :: natural value.natAbs := by
  simp [decimal, h]

end ReversePolish.Text
