import ReversePolish.Proofs.Judgement
import ReversePolish.Proofs.Overlong

/-!
# ReversePolish.Proofs.Ending

The three ways in which an evaluation **ends**, and what it notes.

All lexemes are read before any of them acts. So the first overlong numeral of an
expression decides how the evaluation ends, even behind a lexeme at which the machine
would have stopped, and then nothing is noted. Every other evaluation ends with a value
and an empty log, or with a failure and one event of the lowest level.

The lexemes are told here by how the expression is put together from them (`Spaced`).
White space is asked for on top of that: a dense expression is spaced by the single
lexeme that it is, yet each of its characters is read on its own.
-/

namespace ReversePolish

open Text

/-! ### The first lexeme that cannot be read -/

theorem ofLexeme_eq_error_iff_exists_numeral {lexeme : Text} {overlong : Overlong} :
    Meaning.ofLexeme lexeme = .error overlong ↔
      ∃ numeral : Numeral, numeral.IsOverlong ∧ numeral.text = lexeme ∧
        overlong = .literal numeral.digits.length := by
  rw [ofLexeme_eq_error_iff, Literal.read_eq_error_iff]
  constructor
  · rintro ⟨hoverlong, hdigits⟩
    obtain ⟨numeral, hnumeral, rfl⟩ := isOverlong_iff.mp hoverlong
    exact ⟨numeral, hnumeral, rfl, by rw [hdigits, Numeral.unsigned_text]⟩
  · rintro ⟨numeral, hnumeral, rfl, hdigits⟩
    exact ⟨isOverlong_iff.mpr ⟨numeral, hnumeral, rfl⟩, by rw [hdigits, Numeral.unsigned_text]⟩

theorem exists_ofLexeme_eq_ok_iff_forall_numeral {lexeme : Text} :
    (∃ meaning, Meaning.ofLexeme lexeme = .ok meaning) ↔
      ∀ numeral : Numeral, numeral.IsOverlong → numeral.text ≠ lexeme := by
  rw [exists_ofLexeme_eq_ok_iff, Bool.eq_false_iff, Ne, isOverlong_iff]
  simp

/-- `numeral` is the first overlong lexeme of the expression. -/
def FirstOverlong (expression : Text) (numeral : Numeral) : Prop :=
  ∃ before after, Spaced (before ++ numeral.text :: after) expression ∧
    (∀ lexeme ∈ before ++ numeral.text :: after, Unbroken lexeme) ∧ numeral.IsOverlong ∧
    ∀ earlier : Numeral, earlier.IsOverlong → earlier.text ∉ before

theorem mapM_ofLexeme_eq_error_iff {lexemes : List Text} {overlong : Overlong} :
    lexemes.mapM Meaning.ofLexeme = .error overlong ↔
      ∃ (before after : List Text) (numeral : Numeral),
        lexemes = before ++ numeral.text :: after ∧ numeral.IsOverlong ∧
        (∀ earlier : Numeral, earlier.IsOverlong → earlier.text ∉ before) ∧
        overlong = .literal numeral.digits.length := by
  rw [mapM_eq_error_iff]
  constructor
  · rintro ⟨before, lexeme, after, hsplit, hbefore, herror⟩
    obtain ⟨numeral, hnumeral, rfl, hdigits⟩ := ofLexeme_eq_error_iff_exists_numeral.mp herror
    refine ⟨before, after, numeral, hsplit, hnumeral, ?_, hdigits⟩
    intro earlier hearlier hmem
    exact exists_ofLexeme_eq_ok_iff_forall_numeral.mp (hbefore _ hmem) earlier hearlier rfl
  · rintro ⟨before, after, numeral, hsplit, hnumeral, hbefore, hdigits⟩
    refine ⟨before, numeral.text, after, hsplit, ?_, ?_⟩
    · intro lexeme hmem
      refine exists_ofLexeme_eq_ok_iff_forall_numeral.mpr ?_
      rintro earlier hearlier rfl
      exact hbefore earlier hearlier hmem
    · exact ofLexeme_eq_error_iff_exists_numeral.mpr ⟨numeral, hnumeral, rfl, hdigits⟩

/-- Leaving out empty lexemes does not change which one cannot be read. -/
theorem tokenize_eq_error_iff {expression : Text} {skipEmpty : Bool} {overlong : Overlong} :
    tokenize expression skipEmpty = .error overlong ↔
      (lexemes expression).mapM Meaning.ofLexeme = .error overlong := by
  have hempty : ∀ lexeme : Text, (!lexeme.isEmpty) = false →
      ∃ meaning, Meaning.ofLexeme lexeme = .ok meaning := by
    intro lexeme h
    obtain rfl : lexeme = [] := by simpa using h
    exact ⟨.unknown, rfl⟩
  rw [tokenize, mapM_ofPiece, map_eq_error_iff, map_text_keptPieces]
  unfold kept
  split
  · exact filter_mapM_eq_error_iff hempty
  · rfl

theorem hasBlank_of_tokenize_eq_error {expression : Text} {skipEmpty : Bool} {overlong : Overlong}
    (h : tokenize expression skipEmpty = .error overlong) : expression.hasBlank = true := by
  have hnone : ¬ ∃ tokens, tokenize expression skipEmpty = .ok tokens := by simp [h]
  rw [exists_tokens_iff_not_holdsOverlong, not_not] at hnone
  exact hnone.1

theorem evaluate_eq_error_iff_firstOverlong {expression : Text} {skipEmpty : Bool}
    {overlong : Overlong} :
    evaluate expression skipEmpty = .error overlong ↔
      expression.hasBlank = true ∧ ∃ numeral, FirstOverlong expression numeral ∧
        overlong = .literal numeral.digits.length := by
  rw [evaluate_eq_error_iff]
  constructor
  · intro h
    have hblank := hasBlank_of_tokenize_eq_error h
    rw [tokenize_eq_error_iff, lexemes_of_hasBlank hblank] at h
    obtain ⟨before, after, numeral, hsplit, hnumeral, hbefore, hdigits⟩ :=
      mapM_ofLexeme_eq_error_iff.mp h
    refine ⟨hblank, numeral, ⟨before, after, ?_, ?_, hnumeral, hbefore⟩, hdigits⟩
    · rw [← hsplit]
      exact Spaced.splitOnP expression
    · intro lexeme hmem
      rw [← hsplit] at hmem
      exact unbroken_of_mem_splitOnP hmem
  · rintro ⟨hblank, numeral, ⟨before, after, hspaced, hunbroken, hnumeral, hbefore⟩, hdigits⟩
    rw [tokenize_eq_error_iff, lexemes_of_hasBlank hblank, hspaced.splitOnP_eq hunbroken]
    exact mapM_ofLexeme_eq_error_iff.mpr
      ⟨before, after, numeral, rfl, hnumeral, hbefore, hdigits⟩

/-! ### What is noted -/

@[simp] theorem result_evaluateLogged (expression : Text) (skipEmpty : Bool) :
    (evaluateLogged expression skipEmpty).result = evaluate expression skipEmpty := by
  unfold evaluateLogged
  cases evaluate expression skipEmpty <;> rfl

theorem evaluateLogged_of_error {expression : Text} {skipEmpty : Bool} {overlong : Overlong}
    (h : evaluate expression skipEmpty = .error overlong) :
    evaluateLogged expression skipEmpty = ⟨.error overlong, []⟩ := by
  simp only [evaluateLogged, h]

theorem evaluateLogged_of_ok {expression : Text} {skipEmpty : Bool} {outcome : Outcome}
    (h : evaluate expression skipEmpty = .ok outcome) :
    evaluateLogged expression skipEmpty = ⟨.ok outcome, outcome.log expression⟩ := by
  simp only [evaluateLogged, h]

/-- **How an evaluation ends.** It has no outcome exactly when an overlong numeral is among
the lexemes of a spaced expression; the report counts the digits of the first one, whatever
lexemes stand before it, and nothing is noted. Otherwise it ends with a value and nothing
noted, or with a failure and one event, which is no more than detail. -/
theorem evaluateLogged_ending (expression : Text) (skipEmpty : Bool) :
    ((∃ overlong, (evaluateLogged expression skipEmpty).result = .error overlong) ↔
      HoldsOverlong expression) ∧
    (∀ overlong, (evaluateLogged expression skipEmpty).result = .error overlong ↔
      expression.hasBlank = true ∧ ∃ numeral, FirstOverlong expression numeral ∧
        overlong = .literal numeral.digits.length) ∧
    ((∃ overlong, evaluateLogged expression skipEmpty = ⟨.error overlong, []⟩) ∨
      (∃ value, evaluateLogged expression skipEmpty = ⟨.ok (.success value), []⟩) ∨
      ∃ reason event, evaluateLogged expression skipEmpty = ⟨.ok (.failure reason), [event]⟩ ∧
        event = .evaluationFailed expression reason.diagnostic.detail ∧ event.level = .debug) := by
  simp only [result_evaluateLogged]
  refine ⟨?_, fun overlong => evaluate_eq_error_iff_firstOverlong, ?_⟩
  · have htokens : (∃ outcome, evaluate expression skipEmpty = .ok outcome) ↔
        ¬ HoldsOverlong expression := by
      rw [exists_outcome_iff_exists_tokens, exists_tokens_iff_not_holdsOverlong]
    rw [← not_iff_not, ← htokens]
    cases evaluate expression skipEmpty <;> simp
  · cases houtcome : evaluate expression skipEmpty with
    | error overlong => exact Or.inl ⟨overlong, evaluateLogged_of_error houtcome⟩
    | ok outcome =>
        right
        have hlogged := evaluateLogged_of_ok houtcome
        cases outcome with
        | success value => exact Or.inl ⟨value, hlogged⟩
        | failure reason => exact Or.inr ⟨reason, _, hlogged, rfl, rfl⟩

/-- Behind an unknown lexeme, a zero of 4301 digits still decides, and nothing is noted. -/
theorem evaluateLogged_long_zero_behind_unknown :
    evaluateLogged (['x', ' '] ++ (Numeral.zeros 4300).text) false =
      ⟨.error (.literal 4301), []⟩ := by
  obtain ⟨-, hfirst, hlog⟩ := evaluateLogged_ending (['x', ' '] ++ (Numeral.zeros 4300).text) false
  have hunbroken : Unbroken ['x'] := by
    intro c hc
    obtain rfl := List.mem_singleton.mp hc
    decide
  have hoverlong : FirstOverlong (['x', ' '] ++ (Numeral.zeros 4300).text) (.zeros 4300) := by
    refine ⟨[['x']], [], .cons ['x'] (by decide) (.single _), ?_,
      Numeral.isOverlong_zeros (Nat.le_refl 4300), ?_⟩
    · simpa using ⟨hunbroken, (Numeral.zeros 4300).unbroken_text⟩
    · intro earlier hearlier hmem
      have hlength := hearlier.1
      have htext : earlier.text.length = 1 := by rw [List.mem_singleton.mp hmem]; rfl
      rw [Numeral.text, List.length_append] at htext
      unfold Literal.digitLimit at hlength
      omega
  have hdigits : (Numeral.zeros 4300).digits.length = 4301 := List.length_replicate
  have hresult := (hfirst (.literal 4301)).mpr ⟨rfl, _, hoverlong, by rw [hdigits]⟩
  rcases hlog with ⟨overlong, h⟩ | ⟨value, h⟩ | ⟨reason, event, h, -, -⟩
  · rw [h] at hresult ⊢
    cases hresult
    rfl
  · rw [h] at hresult
    cases hresult
  · rw [h] at hresult
    cases hresult

end ReversePolish
