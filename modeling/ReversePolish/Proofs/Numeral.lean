import Mathlib.Algebra.Group.Nat.Defs
import ReversePolish.Text.Blank
import ReversePolish.Token

/-!
# ReversePolish.Proofs.Numeral

The **grammar of integer literals**, and what reading makes of it.

A numeral is an optional sign and one or more digits, leading zeros allowed. The
literals are the texts of numerals (`isLiteral_iff`), so a fact about literals can
be proved for a numeral, whose sign and digits are at hand.

Design points:

* A word has at most ten digits behind its leading zeros
  (`length_significant_le_of_inRange`). So the count that turns a literal down
  never turns down a word, and reading gives the value of every numeral that is a
  word and not too long (`read_text`).
* A numeral is overlong by its digits, leading zeros included; it must be short
  without them (`isOverlong_text`).
-/

namespace ReversePolish

/-- What stands before the digits of a numeral. -/
inductive Sign
  | absent
  | plus
  | minus
  deriving Repr, DecidableEq

/-- A sign as it is written. -/
def Sign.text : Sign → Text
  | absent => []
  | plus => ['+']
  | minus => ['-']

/-- An integer as it may be written. -/
structure Numeral where
  sign : Sign
  digits : Text
  digits_ne_nil : digits ≠ []
  isDigit : ∀ c ∈ digits, c.isDigit = true

namespace Numeral

def text (numeral : Numeral) : Text := numeral.sign.text ++ numeral.digits

/-- The number that the digits name in base ten. -/
def magnitude (numeral : Numeral) : Nat := Nat.ofDigitChars 10 numeral.digits 0

/-- The integer that a numeral names. -/
def value (numeral : Numeral) : Int :=
  match numeral.sign with
  | .minus => -numeral.magnitude
  | _ => numeral.magnitude

/-- Whether a numeral has more digits than are read, yet at most ten behind some
leading zeros. -/
def IsOverlong (numeral : Numeral) : Prop :=
  Literal.digitLimit < numeral.digits.length ∧
    ∃ zeros rest, numeral.digits = zeros ++ rest ∧ (∀ c ∈ zeros, c = '0') ∧
      rest.length ≤ Literal.wordDigits

theorem IsOverlong.lt_length_text {numeral : Numeral} (h : numeral.IsOverlong) :
    Literal.digitLimit < numeral.text.length := by
  rw [text, List.length_append]
  exact Nat.lt_of_lt_of_le h.1 (Nat.le_add_left _ _)

/-! ### Literals are numerals -/

theorem unsigned_cons_of_isDigit {c : Char} (h : c.isDigit = true) (rest : Text) :
    Literal.unsigned (c :: rest) = c :: rest := by
  unfold Literal.unsigned
  split
  · next heq =>
      cases heq
      exact absurd h (by decide)
  · next heq =>
      cases heq
      exact absurd h (by decide)
  · rfl

theorem unsigned_text (numeral : Numeral) : Literal.unsigned numeral.text = numeral.digits := by
  obtain ⟨sign, digits, hne, hdigits⟩ := numeral
  cases sign with
  | absent =>
      obtain ⟨c, rest, rfl⟩ := List.exists_cons_of_ne_nil hne
      exact unsigned_cons_of_isDigit (hdigits c List.mem_cons_self) rest
  | plus => rfl
  | minus => rfl

theorem isLiteral_text (numeral : Numeral) : Literal.isLiteral numeral.text = true := by
  rw [Literal.isLiteral, unsigned_text]
  simp [numeral.digits_ne_nil, List.all_eq_true.mpr numeral.isDigit]

theorem exists_sign (lexeme : Text) :
    ∃ sign : Sign, sign.text ++ Literal.unsigned lexeme = lexeme := by
  unfold Literal.unsigned
  split
  · exact ⟨.plus, rfl⟩
  · exact ⟨.minus, rfl⟩
  · exact ⟨.absent, rfl⟩

/-- A text is a literal exactly when some numeral is written so. -/
theorem isLiteral_iff {lexeme : Text} :
    Literal.isLiteral lexeme = true ↔ ∃ numeral : Numeral, numeral.text = lexeme := by
  constructor
  · intro h
    rw [Literal.isLiteral, Bool.and_eq_true, Bool.not_eq_true', List.isEmpty_eq_false_iff,
      List.all_eq_true] at h
    obtain ⟨hne, hdigits⟩ := h
    obtain ⟨sign, hsign⟩ := exists_sign lexeme
    exact ⟨⟨sign, Literal.unsigned lexeme, hne, hdigits⟩, hsign⟩
  · rintro ⟨numeral, rfl⟩
    exact isLiteral_text numeral

theorem value_text (numeral : Numeral) : Literal.value numeral.text = numeral.value := by
  have hunsigned := unsigned_text numeral
  obtain ⟨sign, digits, hne, hdigits⟩ := numeral
  simp only [Literal.value, hunsigned]
  cases sign with
  | absent =>
      obtain ⟨c, rest, rfl⟩ := List.exists_cons_of_ne_nil hne
      -- Without a sign, the sign of the value is decided by a digit.
      have hminus : c ≠ '-' := by
        rintro rfl
        exact absurd (hdigits '-' List.mem_cons_self) (by decide)
      simp [text, Sign.text, value, magnitude, hminus]
  | plus => simp [text, Sign.text, value, magnitude]
  | minus => simp [text, Sign.text, value, magnitude]

theorem isBlank_of_mem_text {numeral : Numeral} {c : Char} (h : c ∈ numeral.text) :
    Text.isBlank c = false := by
  obtain ⟨sign, digits, hne, hdigits⟩ := numeral
  rcases List.mem_append.mp h with h | h
  · cases sign with
    | absent => cases h
    | plus =>
        obtain rfl : c = '+' := List.mem_singleton.mp h
        decide
    | minus =>
        obtain rfl : c = '-' := List.mem_singleton.mp h
        decide
  · exact Text.isBlank_of_isDigit (hdigits c h)

/-! ### Leading zeros -/

theorem ofDigitChars_significant (digits : Text) :
    Nat.ofDigitChars 10 (Literal.significant digits) 0 = Nat.ofDigitChars 10 digits 0 := by
  induction digits with
  | nil => rfl
  | cons c rest ih =>
      by_cases hzero : c = '0'
      · subst hzero
        rw [Nat.ofDigitChars_cons]
        exact ih
      · rw [Literal.significant, List.dropWhile_cons_of_neg (by simpa using hzero)]

theorem ten_pow_le_ofDigitChars {c : Char} {rest : Text} (hdigit : c.isDigit = true)
    (hzero : c ≠ '0') : 10 ^ rest.length ≤ Nat.ofDigitChars 10 (c :: rest) 0 := by
  have hlow : 48 ≤ c.toNat := by
    rw [Char.isDigit, Bool.and_eq_true, decide_eq_true_eq] at hdigit
    exact hdigit.1
  have hne : c.toNat ≠ 48 := fun h => hzero (Char.toNat_inj.mp h)
  have hpos : 1 ≤ 10 * 0 + (c.toNat - '0'.toNat) := by
    have h48 : '0'.toNat = 48 := rfl
    omega
  calc 10 ^ rest.length
      ≤ 10 ^ rest.length * (10 * 0 + (c.toNat - '0'.toNat)) := Nat.le_mul_of_pos_right _ hpos
    _ ≤ Nat.ofDigitChars 10 (c :: rest) 0 := by
        rw [Nat.ofDigitChars_cons, Nat.ofDigitChars_eq_ofDigitChars_zero]
        exact Nat.le_add_right _ _

/-- A number below a power of ten has no more digits than the exponent says,
leading zeros apart. -/
theorem length_significant_le {digits : Text} {k : Nat} (hdigits : ∀ c ∈ digits, c.isDigit = true)
    (h : Nat.ofDigitChars 10 digits 0 < 10 ^ k) : (Literal.significant digits).length ≤ k := by
  cases hsignificant : Literal.significant digits with
  | nil => exact Nat.zero_le k
  | cons c rest =>
      have hmem : c ∈ digits := by
        have hsublist : Literal.significant digits ⊆ digits := List.dropWhile_subset _
        exact hsublist (by rw [hsignificant]; exact List.mem_cons_self)
      have hzero : c ≠ '0' := by
        have hhead := List.head?_dropWhile_not (· == '0') digits
        rw [← Literal.significant, hsignificant] at hhead
        simpa using hhead
      have hpow : 10 ^ rest.length ≤ Nat.ofDigitChars 10 digits 0 := by
        rw [← ofDigitChars_significant, hsignificant]
        exact ten_pow_le_ofDigitChars (hdigits c hmem) hzero
      have hlt : 10 ^ rest.length < 10 ^ k := Nat.lt_of_le_of_lt hpow h
      exact (Nat.pow_lt_pow_iff_right (by decide)).mp hlt

theorem length_significant_le_of_inRange {numeral : Numeral} (h : Word.InRange numeral.value) :
    (Literal.significant numeral.digits).length ≤ Literal.wordDigits := by
  refine length_significant_le numeral.isDigit ?_
  have hmagnitude : numeral.magnitude < 10 ^ Literal.wordDigits := by
    unfold Word.InRange Word.least Word.greatest value at h
    -- Ten digits hold either end of the range with room to spare.
    have hpow : 10 ^ Literal.wordDigits = 10000000000 := by decide
    split at h <;> omega
  exact hmagnitude

/-! ### Reading numerals -/

theorem isOverlong_text (numeral : Numeral) :
    Literal.isOverlong numeral.text = true ↔ numeral.IsOverlong := by
  simp only [Literal.isOverlong, isLiteral_text, unsigned_text, Bool.true_and, Bool.and_eq_true,
    decide_eq_true_eq, IsOverlong]
  constructor
  · intro h
    obtain ⟨hshort, hlong⟩ := h
    refine ⟨hlong, numeral.digits.takeWhile (· == '0'), Literal.significant numeral.digits,
      List.takeWhile_append_dropWhile.symm, ?_, hshort⟩
    intro c hc
    exact eq_of_beq (List.all_eq_true.mp List.all_takeWhile c hc)
  · intro h
    obtain ⟨hlong, zeros, rest, hsplit, hzeros, hrest⟩ := h
    refine ⟨?_, hlong⟩
    have hdrop : Literal.significant numeral.digits = Literal.significant rest := by
      rw [hsplit, Literal.significant, List.dropWhile_append_of_pos]
      · rfl
      · simpa using hzeros
    rw [hdrop]
    exact Nat.le_trans (List.dropWhile_sublist _).length_le hrest

/-- A numeral that is not overlong is read as the word that it names, if it names one. -/
theorem read_text_of_not_isOverlong {numeral : Numeral} (h : ¬ numeral.IsOverlong) :
    Literal.read numeral.text =
      .ok (if Word.InRange numeral.value then some numeral.value else none) := by
  rw [← isOverlong_text] at h
  rw [Literal.read_eq, if_neg h, value_text, isLiteral_text, unsigned_text]
  by_cases hrange : Word.InRange numeral.value
  · simp [hrange, length_significant_le_of_inRange hrange]
  · simp [hrange]

/-- A numeral that names a word is read as that word, if it is not too long. -/
theorem read_text {numeral : Numeral} (hrange : Word.InRange numeral.value)
    (hlength : numeral.digits.length ≤ Literal.digitLimit) :
    Literal.read numeral.text = .ok (some numeral.value) := by
  have hread : ¬ numeral.IsOverlong := fun h => absurd h.1 (Nat.not_lt.mpr hlength)
  rw [read_text_of_not_isOverlong hread, if_pos hrange]

/-! ### Decimal forms -/

/-- The numeral that is an integer's decimal form. -/
def ofInt (value : Int) : Numeral where
  sign := if value < 0 then .minus else .absent
  digits := Text.natural value.natAbs
  digits_ne_nil := Nat.toDigits_ne_nil
  isDigit := fun _ => Text.isDigit_of_mem_natural

theorem text_ofInt (value : Int) : (ofInt value).text = Text.decimal value := by
  by_cases hneg : value < 0
  · rw [Text.decimal_of_neg hneg]
    simp [ofInt, text, Sign.text, hneg]
  · rw [Text.decimal_of_nonneg (Int.not_lt.mp hneg)]
    simp [ofInt, text, Sign.text, hneg]

theorem magnitude_ofInt (value : Int) : (ofInt value).magnitude = value.natAbs :=
  Text.ofDigitChars_natural value.natAbs

theorem value_ofInt (value : Int) : (ofInt value).value = value := by
  unfold Numeral.value
  rw [magnitude_ofInt]
  by_cases hneg : value < 0
  · simp only [ofInt, hneg, if_true]
    omega
  · simp only [ofInt, hneg, if_false]
    omega

theorem length_digits_ofInt_le {value : Int} (h : Word.InRange value) :
    (ofInt value).digits.length ≤ Literal.wordDigits := by
  have hbound : value.natAbs < 10 ^ 10 := by
    unfold Word.InRange Word.least Word.greatest at h
    omega
  exact (Nat.length_toDigits_le_iff (by decide) (by decide)).mpr hbound

/-- A word is read back from its decimal form. -/
theorem read_decimal {value : Int} (h : Word.InRange value) :
    Literal.read (Text.decimal value) = .ok (some value) := by
  have hlength : (ofInt value).digits.length ≤ Literal.digitLimit :=
    Nat.le_trans (length_digits_ofInt_le h) (by decide)
  have hread := read_text (by rwa [value_ofInt]) hlength
  rwa [text_ofInt, value_ofInt] at hread

end Numeral

end ReversePolish
