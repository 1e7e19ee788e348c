/-!
# ReversePolish.Word

The **32-bit range** in which the calculator works.

Values are unbounded integers throughout; `wrap` brings a result back into the
range, as two's complement arithmetic does. It is the balanced remainder modulo
`2 ^ 32` (`wrap_eq_bmod`), so it keeps a value that is in range
(`wrap_of_inRange`) and depends on nothing but the residue class
(`wrap_eq_wrap_iff`).
-/

namespace ReversePolish.Word

/-- The width of a word in bits. -/
def bits : Nat := 32

/-- The least value of a word. -/
def least : Int := -2147483648

/-- The greatest value of a word. -/
def greatest : Int := 2147483647

/-- The integers that a word can hold. -/
def InRange (value : Int) : Prop := least ≤ value ∧ value ≤ greatest

instance (value : Int) : Decidable (InRange value) :=
  inferInstanceAs (Decidable (least ≤ value ∧ value ≤ greatest))

/-- The word that a result leaves: the value in range that differs from it by a
multiple of `2 ^ 32`. -/
def wrap (value : Int) : Int := (value - least) % Int.pow 2 bits + least

/-- The upper half of the residues stands for the negative words. -/
theorem wrap_eq (value : Int) :
    wrap value = if value % 4294967296 < 2147483648 then value % 4294967296
      else value % 4294967296 - 4294967296 := by
  have hpow : Int.pow 2 bits = 4294967296 := rfl
  unfold wrap least
  rw [hpow]
  split <;> omega

theorem wrap_eq_bmod (value : Int) : wrap value = value.bmod (Nat.pow 2 bits) := wrap_eq value

theorem wrap_inRange (value : Int) : InRange (wrap value) := by
  rw [wrap_eq]; unfold InRange least greatest; split <;> omega

theorem wrap_of_inRange {value : Int} (h : InRange value) : wrap value = value := by
  unfold InRange least greatest at h; rw [wrap_eq]; split <;> omega

@[simp] theorem wrap_wrap (value : Int) : wrap (wrap value) = wrap value :=
  wrap_of_inRange (wrap_inRange value)

/-- Two integers wrap to the same word exactly when they are congruent. -/
theorem wrap_eq_wrap_iff {a b : Int} : wrap a = wrap b ↔ a % 4294967296 = b % 4294967296 := by
  rw [wrap_eq, wrap_eq]; split <;> split <;> omega

end ReversePolish.Word
