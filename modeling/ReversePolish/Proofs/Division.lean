import ReversePolish.Proofs.Congruence
import ReversePolish.Proofs.Padding
import ReversePolish.Proofs.Written

/-!
# ReversePolish.Proofs.Division

Quotient and remainder **give back the dividend**.

Of all ways to divide with remainder, one rounds toward zero: the remainder is smaller than
the divisor, and it is zero or has the sign of the dividend (`IsDivision`). Quotient and
remainder are that one way (`isDivision_iff`), so the divisor times the quotient and the
remainder add up to the dividend. They still do when each of them is wrapped, and their
product and sum too, because wrapping respects congruence and the dividend is a word
(`IsDivision.wrap_sum`).

The least word over minus one is no exception. Its quotient is no word and wraps to the least
word, but so does the product with minus one.
-/

namespace ReversePolish

open Text

/-! ### Division with remainder -/

/-- A division of `a` by `b` that rounds toward zero, with its quotient and its remainder. -/
structure IsDivision (a b quotient remainder : Int) : Prop where
  sum : a = b * quotient + remainder
  small : remainder.natAbs < b.natAbs
  sign : remainder = 0 ∨ remainder.sign = a.sign

namespace IsDivision

variable {a b q r q' r' : Int}

theorem of_ne_zero (a : Int) (h : b ≠ 0) : IsDivision a b (a.tdiv b) (a.tmod b) where
  sum := (Int.mul_tdiv_add_tmod a b).symm
  small := by
    rw [Int.natAbs_tmod]
    exact Nat.mod_lt _ (Int.natAbs_pos.mpr h)
  sign := by
    by_cases hdvd : b ∣ a
    · exact Or.inl (Int.tmod_eq_zero_of_dvd hdvd)
    · exact Or.inr (by rw [Int.sign_tmod, if_neg hdvd])

theorem divisor_ne_zero (h : IsDivision a b q r) : b ≠ 0 := by
  have hsmall := h.small
  omega

theorem remainder_nonneg (h : IsDivision a b q r) (ha : 0 ≤ a) : 0 ≤ r := by
  rcases h.sign with hzero | hsign
  · omega
  · rwa [← Int.sign_nonneg_iff, hsign, Int.sign_nonneg_iff]

theorem remainder_nonpos (h : IsDivision a b q r) (ha : a ≤ 0) : r ≤ 0 := by
  rcases h.sign with hzero | hsign
  · omega
  · rwa [← Int.sign_nonpos_iff, hsign, Int.sign_nonpos_iff]

/-- Two remainders lie on one side of zero, so they are less than a divisor apart. -/
theorem natAbs_sub_lt (h : IsDivision a b q r) (h' : IsDivision a b q' r') :
    (r' - r).natAbs < b.natAbs := by
  have hsmall := h.small
  have hsmall' := h'.small
  rcases Int.le_total 0 a with ha | ha
  · have hr := h.remainder_nonneg ha
    have hr' := h'.remainder_nonneg ha
    omega
  · have hr := h.remainder_nonpos ha
    have hr' := h'.remainder_nonpos ha
    omega

theorem unique (h : IsDivision a b q r) (h' : IsDivision a b q' r') : q' = q ∧ r' = r := by
  have hsum : b * q + r = b * q' + r' := h.sum.symm.trans h'.sum
  have hdvd : b ∣ r' - r := ⟨q - q', by rw [Int.mul_sub]; omega⟩
  have hr : r' = r := by
    have hzero := Int.eq_zero_of_dvd_of_natAbs_lt_natAbs hdvd (h.natAbs_sub_lt h')
    omega
  have hq : b * q' = b * q := by omega
  exact ⟨Int.eq_of_mul_eq_mul_left h.divisor_ne_zero hq, hr⟩

/-- What wraps to a word is the dividend again, if that is a word. -/
theorem wrap_sum (h : IsDivision a b q r) (ha : Word.InRange a) :
    Word.wrap (Word.wrap (b * Word.wrap q) + Word.wrap r) = a := by
  have hproduct : Word.wrap (b * Word.wrap q) ≡ b * q [ZMOD 2 ^ 32] :=
    (Word.wrap_modEq _).trans ((Word.wrap_modEq q).mul_left b)
  have hsum : Word.wrap (b * Word.wrap q) + Word.wrap r ≡ a [ZMOD 2 ^ 32] := by
    rw [h.sum]
    exact hproduct.add (Word.wrap_modEq r)
  exact (Word.eq_wrap_iff.mpr ⟨ha, hsum.symm⟩).symm

end IsDivision

/-! ### The operators that divide -/

namespace Operator

variable {a b : Int}

theorem quotient_eq_none_iff : quotient a b = none ↔ b = 0 := by
  simp [quotient_eq]

theorem remainder_eq_none_iff : remainder a b = none ↔ b = 0 := by
  simp [remainder_eq]

/-- Quotient and remainder are those of the division that rounds toward zero. -/
theorem isDivision_iff {q r : Int} :
    IsDivision a b q r ↔ quotient a b = some q ∧ remainder a b = some r := by
  constructor
  · intro h
    obtain ⟨rfl, rfl⟩ := (IsDivision.of_ne_zero a h.divisor_ne_zero).unique h
    simp [quotient_eq, remainder_eq, h.divisor_ne_zero]
  · rintro ⟨hq, hr⟩
    have hb : b ≠ 0 := fun hzero => by simp [quotient_eq, hzero] at hq
    simp only [quotient_eq, remainder_eq, if_neg hb, Option.some.injEq] at hq hr
    rw [← hq, ← hr]
    exact .of_ne_zero a hb

theorem exists_quotient_remainder (h : b ≠ 0) :
    ∃ q r, quotient a b = some q ∧ remainder a b = some r ∧
      ∀ q' r', IsDivision a b q' r' ↔ q' = q ∧ r' = r := by
  have hdivision := IsDivision.of_ne_zero a h
  obtain ⟨hq, hr⟩ := isDivision_iff.mp hdivision
  refine ⟨_, _, hq, hr, fun q' r' => ⟨fun h' => hdivision.unique h', ?_⟩⟩
  rintro ⟨rfl, rfl⟩
  exact hdivision

/-- Wrapped at every step, the divisor times the quotient and the remainder add up to a
dividend that is a word. -/
theorem exists_apply_sum (ha : Word.InRange a) (h : b ≠ 0) :
    ∃ q r product, div.apply a b = some q ∧ mod.apply a b = some r ∧
      mul.apply b q = some product ∧ add.apply product r = some a := by
  obtain ⟨hq, hr⟩ := isDivision_iff.mp (IsDivision.of_ne_zero a h)
  refine ⟨Word.wrap (a.tdiv b), Word.wrap (a.tmod b), Word.wrap (b * Word.wrap (a.tdiv b)),
    ?_, ?_, rfl, ?_⟩
  · simp [apply, exact, hq]
  · simp [apply, exact, hr]
  · simp [apply, exact, (IsDivision.of_ne_zero a h).wrap_sum ha]

end Operator

/-! ### The dividend as an expression -/

/-- The quotient times the divisor, plus the remainder. -/
def Tree.restored (a b : Int) : Tree :=
  .node .add (.node .mul (.node .div (.leaf a) (.leaf b)) (.leaf b))
    (.node .mod (.leaf a) (.leaf b))

/-- The same as a text: `a b / b * a b % +`. -/
def restored (a b : Int) : Text :=
  [' '].intercalate [decimal a, decimal b, ['/'], decimal b, ['*'], decimal a, decimal b, ['%'],
    ['+']]

theorem Tree.value_restored {a b : Int} (ha : Word.InRange a) (h : b ≠ 0) :
    (Tree.restored a b).value = some a := by
  obtain ⟨q, r, product, hq, hr, hproduct, hsum⟩ := Operator.exists_apply_sum ha h
  have hcomm : Operator.mul.apply q b = some product := by
    rw [← hproduct]
    simp [Operator.apply, Operator.exact, Int.mul_comm]
  have hquotient : (node .div (leaf a) (leaf b)).value = some q := (value_node rfl rfl).trans hq
  have hremainder : (node .mod (leaf a) (leaf b)).value = some r := (value_node rfl rfl).trans hr
  have hleft : (node .mul (node .div (leaf a) (leaf b)) (leaf b)).value = some product :=
    (value_node hquotient rfl).trans hcomm
  exact (value_node hleft hremainder).trans hsum

theorem Written.decimal {value : Int} (h : Word.InRange value) :
    Written (.leaf value) [decimal value] := by
  have hlength : (Numeral.ofInt value).digits.length ≤ Literal.digitLimit :=
    Nat.le_trans (Numeral.length_digits_ofInt_le h) (by decide)
  have hwritten := Written.leaf (Numeral.ofInt value) (by rwa [Numeral.value_ofInt]) hlength
  rwa [Numeral.value_ofInt, Numeral.text_ofInt] at hwritten

theorem evaluate_restored {a b : Int} (ha : Word.InRange a) (hb : Word.InRange b) (h : b ≠ 0)
    (skipEmpty : Bool) : evaluate (restored a b) skipEmpty = .ok (.success a) := by
  have hwritten : Written (Tree.restored a b) [Text.decimal a, Text.decimal b, ['/'],
      Text.decimal b, ['*'], Text.decimal a, Text.decimal b, ['%'], ['+']] :=
    .node .add (.node .mul (.node .div (.decimal ha) (.decimal hb)) (.decimal hb))
      (.node .mod (.decimal ha) (.decimal hb))
  exact hwritten.evaluate_of_value (spaced_intercalate (List.cons_ne_nil _ _)) (by simp)
    (Tree.value_restored ha h) skipEmpty

/-- **Quotient and remainder give back the dividend.** Neither exists for a zero divisor, and
for every other they are the one division that rounds toward zero, on all integers. Between
words the divisor times the quotient and the remainder add up to the dividend also where each
result is wrapped, so the expression that says so has the dividend for its value. -/
theorem quotient_and_remainder :
    (∀ a b : Int, (Operator.quotient a b = none ↔ b = 0) ∧
      (Operator.remainder a b = none ↔ b = 0)) ∧
    (∀ a b : Int, b ≠ 0 →
      ∃ q r, Operator.quotient a b = some q ∧ Operator.remainder a b = some r ∧
        ∀ q' r', IsDivision a b q' r' ↔ q' = q ∧ r' = r) ∧
    ∀ a b : Int, Word.InRange a → Word.InRange b → b ≠ 0 →
      (∃ q r product, Operator.div.apply a b = some q ∧ Operator.mod.apply a b = some r ∧
        Operator.mul.apply b q = some product ∧ Operator.add.apply product r = some a) ∧
      ∀ skipEmpty, evaluate (restored a b) skipEmpty = .ok (.success a) := by
  refine ⟨?_, ?_, ?_⟩
  · intro a b
    exact ⟨Operator.quotient_eq_none_iff, Operator.remainder_eq_none_iff⟩
  · intro a b hb
    exact Operator.exists_quotient_remainder hb
  · intro a b ha hb hzero
    exact ⟨Operator.exists_apply_sum ha hzero, evaluate_restored ha hb hzero⟩

/-- Minus seven by two, and the least word by minus one, whose quotient is the least word when
it is wrapped. -/
theorem least_restored_from_minus_one :
    (∀ q r, IsDivision (-7) 2 q r ↔ q = -3 ∧ r = -1) ∧
      (∃ product, Operator.mul.apply (-1) Word.least = some product ∧
        Operator.add.apply product 0 = some Word.least) ∧
      evaluate "-2147483648 -1 / -1 * -2147483648 -1 % +".toList false =
        .ok (.success Word.least) := by
  obtain ⟨-, hunique, hwords⟩ := quotient_and_remainder
  refine ⟨?_, ?_, ?_⟩
  · obtain ⟨q, r, hq, hr, hiff⟩ := hunique (-7) 2 (by decide)
    cases hq
    cases hr
    exact hiff
  · obtain ⟨⟨q, r, product, hq, hr, hproduct, hsum⟩, -⟩ :=
      hwords Word.least (-1) (by decide) (by decide) (by decide)
    cases hq
    cases hr
    exact ⟨product, hproduct, hsum⟩
  · have htext : restored Word.least (-1) =
        "-2147483648 -1 / -1 * -2147483648 -1 % +".toList := by
      decide
    rw [← htext]
    exact (hwords Word.least (-1) (by decide) (by decide) (by decide)).2 false

end ReversePolish
