import ReversePolish.Proofs.Tree

/-!
# ReversePolish.Proofs.Reference

A **second evaluation** of trees, defined on its own.

`Tree.reference` reduces a result to 32 bits by moving it up half a range, taking
it modulo the range and moving it down again; it divides by rounding **down** and
then corrects a negative quotient that is not exact; and it does not reduce a
remainder at all. On trees whose leaves are words it agrees with `Tree.value`
(`reference_eq_value`), which truncates and reduces every result: the remainder by
a word is a word already.
-/

namespace ReversePolish

namespace Reference

/-- A result reduced to 32 bits. -/
def reduce (value : Int) : Int := (value + 2147483648) % 4294967296 - 2147483648

/-- The quotient rounded down, corrected by one where it is negative and not
exact. -/
def quotient (a b : Int) : Int :=
  let q := a.fdiv b
  if q < 0 ∧ q * b ≠ a then q + 1 else q

/-- The result of an operator, which is missing when the divisor is zero. -/
def apply (op : Operator) (a b : Int) : Option Int :=
  match op with
  | .add => some (reduce (a + b))
  | .sub => some (reduce (a - b))
  | .mul => some (reduce (a * b))
  | .div => if b = 0 then none else some (reduce (quotient a b))
  | .mod => if b = 0 then none else some (a - b * quotient a b)

/-! ### Agreement on words -/

theorem reduce_eq_wrap (value : Int) : reduce value = Word.wrap value := by
  rw [Word.wrap_eq]
  unfold reduce
  split <;> omega

/-- An inexact quotient is rounded below zero where the signs differ. -/
theorem fdiv_neg_iff {a b : Int} (hb : b ≠ 0) (hexact : ¬ b ∣ a) :
    a.fdiv b < 0 ↔ (0 ≤ a ↔ b < 0) := by
  have ha : a ≠ 0 := by
    rintro rfl
    exact hexact (Int.dvd_zero b)
  rcases Int.lt_or_gt_of_ne ha with ha | ha <;> rcases Int.lt_or_gt_of_ne hb with hb | hb
  · have hq := Int.fdiv_nonneg_of_nonpos_of_nonpos (Int.le_of_lt ha) (Int.le_of_lt hb)
    omega
  · have hq := Int.fdiv_neg_of_neg_of_pos ha hb
    omega
  · have hq := Int.fdiv_neg_of_neg_of_pos (Int.neg_neg_of_pos ha) (Int.neg_pos_of_neg hb)
    rw [Int.neg_fdiv_neg] at hq
    omega
  · have hq := Int.fdiv_nonneg (Int.le_of_lt ha) (Int.le_of_lt hb)
    omega

theorem fdiv_mul_eq_iff {a b : Int} : a.fdiv b * b = a ↔ b ∣ a := by
  constructor
  · intro h
    exact ⟨a.fdiv b, by rw [Int.mul_comm, h]⟩
  · intro h
    exact Int.fdiv_mul_cancel h

theorem quotient_eq_tdiv {a b : Int} (hb : b ≠ 0) : quotient a b = a.tdiv b := by
  unfold quotient
  simp only [Ne, fdiv_mul_eq_iff]
  rw [Int.tdiv_eq_fdiv]
  by_cases hexact : b ∣ a
  · simp [hexact]
  · have hneg := fdiv_neg_iff hb hexact
    simp only [hexact, not_false_eq_true, and_true, if_false]
    rcases Int.lt_or_gt_of_ne hb with hb | hb
    · rw [Int.sign_eq_neg_one_of_neg hb]
      split <;> omega
    · rw [Int.sign_eq_one_of_pos hb]
      split <;> omega

theorem inRange_tmod {a b : Int} (hb : Word.InRange b) (hzero : b ≠ 0) :
    Word.InRange (a.tmod b) := by
  have habs := Int.natAbs_tmod a b
  have hlt : a.natAbs % b.natAbs < b.natAbs := Nat.mod_lt _ (Int.natAbs_pos.mpr hzero)
  unfold Word.InRange Word.least Word.greatest at *
  omega

theorem apply_eq {op : Operator} {a b : Int} (hb : Word.InRange b) :
    apply op a b = op.apply a b := by
  cases op with
  | add => simp only [apply, Operator.apply, Operator.exact, Option.map_some, reduce_eq_wrap]
  | sub => simp only [apply, Operator.apply, Operator.exact, Option.map_some, reduce_eq_wrap]
  | mul => simp only [apply, Operator.apply, Operator.exact, Option.map_some, reduce_eq_wrap]
  | div =>
      simp only [apply, Operator.apply, Operator.exact, Operator.quotient_eq]
      split
      · rfl
      · next hzero => rw [Option.map_some, reduce_eq_wrap, quotient_eq_tdiv hzero]
  | mod =>
      simp only [apply, Operator.apply, Operator.exact, Operator.remainder_eq]
      split
      · rfl
      · next hzero =>
          rw [Option.map_some, Word.wrap_of_inRange (inRange_tmod hb hzero),
            quotient_eq_tdiv hzero, Int.tmod_def]

end Reference

namespace Tree

/-- The value of a tree by the second evaluation. -/
def reference : Tree → Option Int
  | leaf value => some value
  | node op left right =>
    left.reference.bind fun a => right.reference.bind fun b => Reference.apply op a b

/-- Whether every leaf is a word. -/
def HasWords : Tree → Prop
  | leaf value => Word.InRange value
  | node _ left right => left.HasWords ∧ right.HasWords

theorem inRange_of_value {tree : Tree} {v : Int} (hwords : tree.HasWords)
    (h : tree.value = some v) : Word.InRange v := by
  cases tree with
  | leaf value =>
      cases h
      exact hwords
  | node op left right =>
      obtain ⟨a, -, hrest⟩ := Option.bind_eq_some_iff.mp h
      obtain ⟨b, -, happly⟩ := Option.bind_eq_some_iff.mp hrest
      exact Operator.inRange_of_apply happly

/-- The two evaluations agree on words. -/
theorem reference_eq_value {tree : Tree} (hwords : tree.HasWords) :
    tree.reference = tree.value := by
  induction tree with
  | leaf value => rfl
  | node op left right ihLeft ihRight =>
      obtain ⟨hleft, hright⟩ := hwords
      rw [reference, value, ihLeft hleft, ihRight hright]
      cases ha : left.value with
      | none => rfl
      | some a =>
          cases hb : right.value with
          | none => rfl
          | some b =>
              exact Reference.apply_eq (inRange_of_value hright hb)

theorem HasWords.of_mem_subtrees {tree subtree : Tree} (hwords : tree.HasWords)
    (h : subtree ∈ tree.subtrees) : subtree.HasWords := by
  induction tree with
  | leaf value =>
      obtain rfl := List.mem_singleton.mp h
      exact hwords
  | node op left right ihLeft ihRight =>
      simp only [subtrees, List.mem_append, List.mem_singleton] at h
      rcases h with (h | h) | rfl
      · exact ihLeft hwords.1 h
      · exact ihRight hwords.2 h
      · exact hwords

theorem dividesByZero_reference_iff {tree : Tree} (hwords : tree.HasWords) :
    tree.DividesByZero reference ↔ tree.DividesByZero value := by
  cases tree with
  | leaf value => rfl
  | node op left right => rw [DividesByZero, DividesByZero, reference_eq_value hwords.2]

/-- The two evaluations find the same first division by zero. -/
theorem FirstDivisionByZero.reference {tree : Tree} {before : List Tree} {op : Operator}
    {left right : Tree} (h : FirstDivisionByZero value tree before op left right)
    (hwords : tree.HasWords) :
    FirstDivisionByZero Tree.reference tree before op left right := by
  have hsubset : ∀ subtree ∈ before ++ [node op left right], subtree.HasWords :=
    fun subtree hmem => hwords.of_mem_subtrees (h.listed.subset hmem)
  refine ⟨h.listed, ?_, ?_⟩
  · exact (dividesByZero_reference_iff (hsubset _ (by simp))).mpr h.divides
  · intro subtree hmem hzero
    have hsubtree := hsubset subtree (List.mem_append_left _ hmem)
    exact h.first subtree hmem ((dividesByZero_reference_iff hsubtree).mp hzero)

end Tree

end ReversePolish
