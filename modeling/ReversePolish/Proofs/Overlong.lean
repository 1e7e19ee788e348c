import ReversePolish.Proofs.Range

/-!
# ReversePolish.Proofs.Overlong

**When there is no outcome**: one kind of literal keeps an expression from having one.

A literal with no more than ten digits behind its leading zeros passes the count that
turns long literals down, and is then read with its zeros. Behind thousands of zeros
it is too long to be read, and neither a value nor a failure comes of it. Every
other expression has an outcome.

Design points:

* The condition speaks of the expression as it is written (`HoldsOverlong`), not of
  the pieces that it is cut into. White space is part of it: in a dense expression
  every lexeme is a single character.
* Whether empty pieces are dropped makes no difference, because an overlong literal
  is not empty.
-/

namespace ReversePolish

open Text

/-- Whether an overlong numeral is a lexeme of a spaced expression. -/
def HoldsOverlong (expression : Text) : Prop :=
  expression.hasBlank = true ∧
    ∃ numeral : Numeral, numeral.IsOverlong ∧ StandsIn numeral.text expression

theorem mem_keptPieces_iff {expression : Text} {skipEmpty : Bool} {piece : Piece} :
    piece ∈ keptPieces expression skipEmpty ↔
      piece ∈ pieces expression ∧ (skipEmpty = true → piece.text ≠ []) := by
  unfold keptPieces
  cases skipEmpty with
  | true => simp
  | false => simp

theorem length_text_of_mem_densePieces {expression : Text} {piece : Piece}
    (h : piece ∈ densePieces expression) : piece.text.length = 1 := by
  obtain ⟨⟨c, index⟩, -, rfl⟩ := List.mem_map.mp h
  rfl

theorem text_ne_nil_of_isOverlong {lexeme : Text} (h : Literal.isOverlong lexeme = true) :
    lexeme ≠ [] := by
  rintro rfl
  cases h

/-- Only a spaced expression has long pieces. -/
theorem hasBlank_of_isOverlong {expression : Text} {piece : Piece}
    (hpiece : piece ∈ pieces expression) (hoverlong : Literal.isOverlong piece.text = true) :
    expression.hasBlank = true := by
  cases hblank : expression.hasBlank with
  | true => rfl
  | false =>
      rw [pieces_of_not_hasBlank hblank] at hpiece
      have hlength := length_text_of_mem_densePieces hpiece
      have hshort : Literal.isOverlong piece.text = false :=
        isOverlong_eq_false_of_length_le (by rw [hlength]; decide)
      rw [hshort] at hoverlong
      cases hoverlong

theorem exists_mem_pieces_iff_standsIn {expression lexeme : Text}
    (hblank : expression.hasBlank = true) (hlexeme : Unbroken lexeme) :
    (∃ piece ∈ pieces expression, piece.text = lexeme) ↔ StandsIn lexeme expression := by
  rw [← mem_splitOnP_iff_standsIn hlexeme, pieces_of_hasBlank hblank, ← List.mem_map,
    map_text_placed]

/-- A piece that cannot be read is an overlong numeral in a spaced expression. -/
theorem exists_numeral_of_isOverlong {expression : Text} {skipEmpty : Bool} {piece : Piece}
    (hkept : piece ∈ keptPieces expression skipEmpty)
    (hoverlong : Literal.isOverlong piece.text = true) :
    ∃ numeral : Numeral, numeral.IsOverlong ∧ numeral.text = piece.text ∧
      expression.hasBlank = true ∧ StandsIn numeral.text expression := by
  have hpiece := (mem_keptPieces_iff.mp hkept).1
  have hblank := hasBlank_of_isOverlong hpiece hoverlong
  obtain ⟨numeral, hnumeral, htext⟩ := isOverlong_iff.mp hoverlong
  refine ⟨numeral, hnumeral, htext, hblank, ?_⟩
  exact (exists_mem_pieces_iff_standsIn hblank numeral.unbroken_text).mp ⟨piece, hpiece, htext.symm⟩

theorem exists_isOverlong_iff {expression : Text} {skipEmpty : Bool} :
    (∃ piece ∈ keptPieces expression skipEmpty, Literal.isOverlong piece.text = true) ↔
      HoldsOverlong expression := by
  constructor
  · intro h
    obtain ⟨piece, hkept, hoverlong⟩ := h
    obtain ⟨numeral, hnumeral, -, hblank, hstands⟩ := exists_numeral_of_isOverlong hkept hoverlong
    exact ⟨hblank, numeral, hnumeral, hstands⟩
  · intro h
    obtain ⟨hblank, numeral, hnumeral, hstands⟩ := h
    obtain ⟨piece, hpiece, htext⟩ :=
      (exists_mem_pieces_iff_standsIn hblank numeral.unbroken_text).mpr hstands
    have hoverlong : Literal.isOverlong piece.text = true := by
      rw [htext]
      exact (Numeral.isOverlong_text numeral).mpr hnumeral
    exact ⟨piece, mem_keptPieces_iff.mpr ⟨hpiece, fun _ => text_ne_nil_of_isOverlong hoverlong⟩,
      hoverlong⟩

theorem evaluate_eq_error_iff {expression : Text} {skipEmpty : Bool} {overlong : Overlong} :
    evaluate expression skipEmpty = .error overlong ↔
      tokenize expression skipEmpty = .error overlong := by
  rw [evaluate_eq_map, map_eq_error_iff]

theorem exists_outcome_iff_exists_tokens {expression : Text} {skipEmpty : Bool} :
    (∃ outcome, evaluate expression skipEmpty = .ok outcome) ↔
      ∃ tokens, tokenize expression skipEmpty = .ok tokens := by
  rw [evaluate_eq_map]
  cases tokenize expression skipEmpty <;> simp [Except.map]

theorem exists_tokens_iff_not_holdsOverlong {expression : Text} {skipEmpty : Bool} :
    (∃ tokens, tokenize expression skipEmpty = .ok tokens) ↔ ¬ HoldsOverlong expression := by
  have hoverlong : (∃ piece ∈ keptPieces expression skipEmpty,
      Literal.isOverlong piece.text = true) ↔ HoldsOverlong expression := exists_isOverlong_iff
  rw [exists_tokenize_eq_ok_iff, ← hoverlong]
  simp

theorem exists_outcome_iff {expression : Text} {skipEmpty : Bool} :
    (∃ outcome, evaluate expression skipEmpty = .ok outcome) ↔ ¬ HoldsOverlong expression :=
  exists_outcome_iff_exists_tokens.trans exists_tokens_iff_not_holdsOverlong

theorem exists_error_iff_holdsOverlong {expression : Text} {skipEmpty : Bool} :
    (∃ overlong, evaluate expression skipEmpty = .error overlong) ↔ HoldsOverlong expression := by
  have houtcome : (∃ outcome, evaluate expression skipEmpty = .ok outcome) ↔
      ¬ HoldsOverlong expression := exists_outcome_iff
  rw [← not_iff_not, ← houtcome]
  cases evaluate expression skipEmpty <;> simp

theorem exists_error_of_holdsOverlong {expression : Text} (h : HoldsOverlong expression)
    (skipEmpty : Bool) : ∃ overlong, evaluate expression skipEmpty = .error overlong :=
  exists_error_iff_holdsOverlong.mpr h

/-- A short text has no room for an overlong numeral. -/
theorem not_standsIn_of_length_le {text : Text} (h : text.length ≤ Literal.digitLimit) :
    ¬ ∃ numeral : Numeral, numeral.IsOverlong ∧ StandsIn numeral.text text := by
  rintro ⟨numeral, hoverlong, hstands⟩
  have hlong := hoverlong.lt_length_text
  have hshort := hstands.length_le
  omega

/-- A zero of `n + 1` digits. -/
def Numeral.zeros (n : Nat) : Numeral where
  sign := .absent
  digits := List.replicate (n + 1) '0'
  digits_ne_nil := List.cons_ne_nil _ _
  isDigit := by
    intro c hc
    rw [List.eq_of_mem_replicate hc]
    rfl

theorem Numeral.isOverlong_zeros {n : Nat} (h : Literal.digitLimit ≤ n) : (zeros n).IsOverlong := by
  refine ⟨?_, List.replicate (n + 1) '0', [], (List.append_nil _).symm, ?_, Nat.zero_le _⟩
  · rw [zeros, List.length_replicate]
    omega
  · exact fun c hc => List.eq_of_mem_replicate hc

/-- One plus a long zero. -/
theorem holdsOverlong_zeros {n : Nat} (h : Literal.digitLimit ≤ n) :
    HoldsOverlong (['1', ' '] ++ (Numeral.zeros n).text ++ [' ', '+']) := by
  refine ⟨rfl, .zeros n, Numeral.isOverlong_zeros h, ['1', ' '], [' ', '+'], rfl, ?_, ?_⟩
  · exact Or.inr ⟨['1'], ' ', rfl, rfl⟩
  · exact Or.inr ⟨' ', ['+'], rfl, rfl⟩

/-- **When there is an outcome.** An expression has an outcome, a value or a failure,
exactly when no overlong numeral is among its lexemes. Where it has none, the report
gives the digits of one of them. -/
theorem exists_outcome_iff_not_holdsOverlong (expression : Text) (skipEmpty : Bool) :
    ((∃ outcome, evaluate expression skipEmpty = .ok outcome) ↔ ¬ HoldsOverlong expression) ∧
    ∀ overlong, evaluate expression skipEmpty = .error overlong →
      ∃ numeral : Numeral, numeral.IsOverlong ∧ StandsIn numeral.text expression ∧
        overlong = .literal numeral.digits.length := by
  constructor
  · rw [exists_outcome_iff_exists_tokens, exists_tokens_iff_not_holdsOverlong]
  · intro overlong herror
    obtain ⟨piece, hkept, hread⟩ :=
      exists_of_tokenize_eq_error (evaluate_eq_error_iff.mp herror)
    obtain ⟨hoverlong, hdigits⟩ := Literal.read_eq_error_iff.mp hread
    obtain ⟨numeral, hnumeral, htext, -, hstands⟩ := exists_numeral_of_isOverlong hkept hoverlong
    refine ⟨numeral, hnumeral, hstands, ?_⟩
    rw [hdigits, ← htext, Numeral.unsigned_text]

/-- Of one plus a zero of 4301 digits, a report comes that counts the digits. -/
theorem exists_report_of_long_zero :
    ∃ overlong, evaluate (['1', ' '] ++ (Numeral.zeros 4300).text ++ [' ', '+']) false =
        .error overlong ∧
      ∃ numeral : Numeral, numeral.IsOverlong ∧ overlong = .literal numeral.digits.length := by
  have hholds := holdsOverlong_zeros (Nat.le_refl 4300)
  obtain ⟨houtcome, hreport⟩ := exists_outcome_iff_not_holdsOverlong
    (['1', ' '] ++ (Numeral.zeros 4300).text ++ [' ', '+']) false
  cases hevaluate : evaluate (['1', ' '] ++ (Numeral.zeros 4300).text ++ [' ', '+']) false with
  | ok outcome => exact absurd hholds (houtcome.mp ⟨outcome, hevaluate⟩)
  | error overlong =>
      obtain ⟨numeral, hnumeral, -, hdigits⟩ := hreport overlong hevaluate
      exact ⟨overlong, rfl, numeral, hnumeral, hdigits⟩

/-- Not every expression has an outcome: one plus a zero of 4301 digits has none. -/
theorem exists_expression_without_outcome :
    ¬ ∀ (expression : Text) (skipEmpty : Bool),
      ∃ outcome, evaluate expression skipEmpty = .ok outcome := by
  intro hall
  have houtcome := hall (['1', ' '] ++ (Numeral.zeros 4300).text ++ [' ', '+']) false
  rw [exists_outcome_iff_exists_tokens, exists_tokens_iff_not_holdsOverlong] at houtcome
  exact houtcome (holdsOverlong_zeros (Nat.le_refl 4300))

end ReversePolish
