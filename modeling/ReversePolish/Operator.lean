import ReversePolish.Word
import ReversePolish.Text.Basic

/-!
# ReversePolish.Operator

The five **binary operators** and their arithmetic.

Design points:

* Division truncates toward zero (`quotient_eq`) and the remainder takes the sign
  of the dividend (`remainder_eq`), so that `a = b * quotient + remainder`. Neither
  exists for a zero divisor; `quotient` and `remainder` are `none` then, and so is
  `apply`.
* `exact` works on unbounded integers; `apply` wraps its result to a word, and
  `result` is that word where the divisor is known not to be zero.
-/

namespace ReversePolish

/-- A binary operator. -/
inductive Operator
  | add
  | sub
  | mul
  | div
  | mod
  deriving Repr, DecidableEq

namespace Operator

/-- All operators. -/
def all : List Operator := [add, sub, mul, div, mod]

/-- The character that stands for an operator in an expression. -/
def symbol : Operator → Char
  | add => '+'
  | sub => '-'
  | mul => '*'
  | div => '/'
  | mod => '%'

/-- The name that a token listing gives. -/
def name : Operator → Text
  | add => "ADD".toList
  | sub => "SUB".toList
  | mul => "MUL".toList
  | div => "DIV".toList
  | mod => "MOD".toList

/-- The operator that a lexeme stands for: its symbol and nothing else. -/
def ofLexeme? : Text → Option Operator
  | ['+'] => some add
  | ['-'] => some sub
  | ['*'] => some mul
  | ['/'] => some div
  | ['%'] => some mod
  | _ => none

@[simp] theorem ofLexeme?_symbol (op : Operator) : ofLexeme? [op.symbol] = some op := by
  cases op <;> rfl

theorem eq_symbol_of_ofLexeme? {lexeme : Text} {op : Operator}
    (h : ofLexeme? lexeme = some op) : lexeme = [op.symbol] := by
  unfold ofLexeme? at h
  split at h <;> cases h <;> rfl

/-- The operators that need a divisor. -/
def divides : Operator → Bool
  | div => true
  | mod => true
  | _ => false

/-! ### Arithmetic -/

/-- The quotient of two integers, rounded toward zero: that of their magnitudes, negative
if the signs differ. -/
def quotient (a b : Int) : Option Int :=
  if b = 0 then none
  else
    let magnitude : Int := a.natAbs / b.natAbs
    some (if decide (a < 0) ≠ decide (b < 0) then -magnitude else magnitude)

/-- The remainder that goes with `quotient`. -/
def remainder (a b : Int) : Option Int := (quotient a b).map fun q => a - b * q

theorem quotient_eq (a b : Int) : quotient a b = if b = 0 then none else some (a.tdiv b) := by
  have hmagnitude : (a.natAbs : Int) / b.natAbs = (a.natAbs : Int).tdiv b.natAbs :=
    (Int.tdiv_eq_ediv_of_nonneg (Int.natCast_nonneg _)).symm
  simp only [quotient, hmagnitude]
  -- Each operand is its magnitude or the negative of it, and `tdiv` passes both signs on.
  rcases Int.lt_or_le a 0 with ha | ha <;> rcases Int.lt_or_le b 0 with hb | hb
  · rw [Int.ofNat_natAbs_of_nonpos (Int.le_of_lt ha), Int.ofNat_natAbs_of_nonpos (Int.le_of_lt hb)]
    simp [ha, hb]
  · rw [Int.ofNat_natAbs_of_nonpos (Int.le_of_lt ha), Int.natAbs_of_nonneg hb]
    simp [ha, Int.not_lt.2 hb]
  · rw [Int.natAbs_of_nonneg ha, Int.ofNat_natAbs_of_nonpos (Int.le_of_lt hb)]
    simp [Int.not_lt.2 ha, hb]
  · rw [Int.natAbs_of_nonneg ha, Int.natAbs_of_nonneg hb]
    simp [Int.not_lt.2 ha, Int.not_lt.2 hb]

theorem remainder_eq (a b : Int) : remainder a b = if b = 0 then none else some (a.tmod b) := by
  rw [remainder, quotient_eq]
  split
  · rfl
  · rw [Option.map_some, Int.tmod_def]

/-- The result of an operator on unbounded integers; `a` is the left operand. -/
def exact (op : Operator) (a b : Int) : Option Int :=
  match op with
  | add => some (a + b)
  | sub => some (a - b)
  | mul => some (a * b)
  | div => quotient a b
  | mod => remainder a b

/-- The result of an operator as a word. -/
def apply (op : Operator) (a b : Int) : Option Int := (op.exact a b).map Word.wrap

/-- An operator has a result unless it divides by zero. -/
theorem exact_eq_none_iff {op : Operator} {a b : Int} :
    op.exact a b = none ↔ op.divides = true ∧ b = 0 := by
  cases op <;> simp [exact, quotient_eq, remainder_eq, divides]

theorem apply_eq_none_iff {op : Operator} {a b : Int} :
    op.apply a b = none ↔ op.divides = true ∧ b = 0 := by
  simp [apply, exact_eq_none_iff]

theorem isSome_apply {op : Operator} {a b : Int} (h : ¬ (op.divides = true ∧ b = 0)) :
    (op.apply a b).isSome = true :=
  Option.isSome_iff_ne_none.2 fun hnone => h (apply_eq_none_iff.1 hnone)

/-- The result of an operator that does not divide by zero, as a word. -/
def result (op : Operator) (a b : Int) (h : ¬ (op.divides = true ∧ b = 0)) : Int :=
  (op.apply a b).get (isSome_apply h)

/-- Where no zero divides, there is no other result than that of `apply`. -/
@[simp] theorem some_result {op : Operator} {a b : Int} (h : ¬ (op.divides = true ∧ b = 0)) :
    some (op.result a b h) = op.apply a b :=
  Option.some_get _

/-- Every result is a word, whatever the operands. -/
theorem inRange_of_apply {op : Operator} {a b v : Int} (h : op.apply a b = some v) :
    Word.InRange v := by
  obtain ⟨w, _, rfl⟩ := Option.map_eq_some_iff.1 h
  exact Word.wrap_inRange w

end Operator

end ReversePolish
