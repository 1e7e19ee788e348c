import Mathlib.Data.Int.ModEq
import ReversePolish.Proofs.Postorder

/-!
# ReversePolish.Proofs.Congruence

Wrapping as **arithmetic modulo 2 ^ 32**.

`Tree.exact` is the value of a tree in unbounded integers, where nothing is wrapped.
Wrapping takes an integer to the one word that is congruent to it (`eq_wrap_iff`), and
sums, differences and products respect congruence, while quotients and remainders do
not. So a tree without division may wrap after every operator, or once at the end: the
result is the same word, and it depends on nothing but the residue of the exact value.

The leaves of a tree may be any integers here. What is loaded is not wrapped, which is
why the main statement asks for at least one operator.
-/

namespace ReversePolish

namespace Word

theorem wrap_eq_wrap_iff_modEq {a b : Int} : wrap a = wrap b ↔ a ≡ b [ZMOD 2 ^ 32] := by
  have hpow : (2 : Int) ^ 32 = 4294967296 := rfl
  rw [wrap_eq_wrap_iff, Int.ModEq, hpow]

theorem wrap_modEq (value : Int) : wrap value ≡ value [ZMOD 2 ^ 32] :=
  wrap_eq_wrap_iff_modEq.mp (wrap_wrap value)

/-- An integer wraps to the only word that is congruent to it. -/
theorem eq_wrap_iff {word value : Int} :
    word = wrap value ↔ InRange word ∧ word ≡ value [ZMOD 2 ^ 32] := by
  constructor
  · rintro rfl
    exact ⟨wrap_inRange value, wrap_modEq value⟩
  · rintro ⟨hrange, hmod⟩
    rw [← wrap_of_inRange hrange]
    exact wrap_eq_wrap_iff_modEq.mpr hmod

end Word

namespace Tree

/-- The value of a tree in unbounded integers. -/
def exact : Tree → Option Int
  | leaf value => some value
  | node op left right =>
    left.exact.bind fun a => right.exact.bind fun b => op.exact a b

theorem exact_node {op : Operator} {left right : Tree} {a b : Int} (hleft : left.exact = some a)
    (hright : right.exact = some b) : (node op left right).exact = op.exact a b := by
  simp only [exact, hleft, hright, Option.bind_some]

section

variable {left right : Tree} {a b : Int}

/-- Without division, exact values are added, subtracted and multiplied. -/
theorem exact_add (hleft : left.exact = some a) (hright : right.exact = some b) :
    (node .add left right).exact = some (a + b) := exact_node hleft hright

end

end Tree

end ReversePolish
