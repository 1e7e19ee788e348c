import ReversePolish.Proofs.Judgement
import ReversePolish.Proofs.Range

/-!
# ReversePolish.Proofs.Replacement

A sub-expression that has a value **may be replaced by it**.

Three facts carry this. A text that is put together at white space is cut part by part
(`exists_splitOnP_context`). The decimal form of a word is read as an operand of that
value (`judge_decimal`). And lexemes that come to a value push it on whatever lies
beneath, so that any lexemes which come to the same value do as well in their place
(`judge_replace`).

Design points:

* A sub-expression holds white space or is a single character. Any other text is
  dense on its own, and in a spaced expression it would be one lexeme.
* The context may fail, and then it fails as before, with the same counts and operands
  in the message. Only places change, because the decimal form has a length of its own.
-/

namespace ReversePolish

open Text

/-! ### Tokens in place of tokens -/

namespace Machine

/-- Tokens that leave one value push it on any stack. -/
theorem run_pushes {tokens : List Token} {value : Int} (h : run tokens [] = .ok [value])
    (stack : Stack) : run tokens stack = .ok (value :: stack) := run_above h stack

theorem run_replace {inner inner' : List Token} {value : Int}
    (h : run inner [] = .ok [value]) (h' : run inner' [] = .ok [value])
    (before after : List Token) (stack : Stack) :
    run (before ++ inner ++ after) stack = run (before ++ inner' ++ after) stack := by
  rw [List.append_assoc, List.append_assoc]
  cases hbefore : run before stack with
  | error stop => rw [run_append_error hbefore, run_append_error hbefore]
  | ok middle =>
      rw [run_append_ok hbefore, run_append_ok hbefore, run_append_ok (run_pushes h middle),
        run_append_ok (run_pushes h' middle)]

end Machine

/-- Only the run from the empty stack matters. -/
theorem outcome_congr {tokens tokens' : List Token}
    (h : Machine.run tokens [] = Machine.run tokens' []) (expression : Text) :
    Machine.outcome tokens expression = Machine.outcome tokens' expression := by
  simp only [Machine.outcome, Machine.result, h]

/-! ### Lexemes in place of lexemes -/

theorem judge_replace {inner inner' : List Text} {value : Int} (h : judge inner = .ok (.ok value))
    (h' : judge inner' = .ok (.ok value)) (before after : List Text) :
    judge (before ++ inner ++ after) = judge (before ++ inner' ++ after) := by
  obtain ⟨tokens, htokens, hrun⟩ := judge_eq_value_iff.mp h
  obtain ⟨tokens', htokens', hrun'⟩ := judge_eq_value_iff.mp h'
  unfold judge
  cases hbefore : before.mapM Token.ofLexeme with
  | error overlong =>
      rw [List.append_assoc, List.append_assoc, mapM_append_of_error hbefore,
        mapM_append_of_error hbefore]
  | ok lefts =>
      rw [mapM_append_of_ok (mapM_append_ok hbefore htokens),
        mapM_append_of_ok (mapM_append_ok hbefore htokens')]
      cases after.mapM Token.ofLexeme with
      | error overlong => rfl
      | ok rights =>
          simp only [Except.map]
          rw [outcome_congr (Machine.run_replace hrun hrun' lefts rights [])]

theorem judge_decimal {value : Int} (h : Word.InRange value) :
    judge [decimal value] = .ok (.ok value) := by
  have hmeaning : Meaning.ofLexeme (decimal value) = .ok (.operand value) := by
    rw [Meaning.ofLexeme, Numeral.read_decimal h]
  have htoken : Token.ofLexeme (decimal value) = .ok ⟨decimal value, 0, .operand value⟩ := by
    rw [Token.ofLexeme, Token.classify, hmeaning]
    rfl
  refine judge_eq_value_iff.mpr ⟨[⟨decimal value, 0, .operand value⟩], ?_, ?_⟩
  · rw [mapM_cons_ok htoken]
    rfl
  · exact Machine.run_singleton_ok (Machine.step_operand rfl [])

theorem judge_of_evaluate {expression : Text} {skipEmpty : Bool} {value : Int}
    (h : evaluate expression skipEmpty = .ok (.success value)) :
    judge (kept skipEmpty (lexemes expression)) = .ok (.ok value) := by
  rw [← map_verdict_evaluate, h]
  rfl

/-! ### Lexemes of a context -/

theorem exists_splitOnP_context {before after : Text} (hbefore : EndsBlank before)
    (hafter : StartsBlank after) :
    ∃ lefts rights, ∀ inner, (before ++ inner ++ after).splitOnP isBlank =
      lefts ++ inner.splitOnP isBlank ++ rights := by
  obtain ⟨lefts, hlefts⟩ := hbefore.exists_splitOnP
  obtain ⟨rights, hrights⟩ := hafter.exists_splitOnP
  exact ⟨lefts, rights, fun inner => by rw [hrights, hlefts]⟩

/-- White space around a text makes it part of a spaced expression. -/
theorem hasBlank_context {before after : Text} (hbefore : EndsBlank before)
    (hafter : StartsBlank after) (hcontext : before ≠ [] ∨ after ≠ []) (inner : Text) :
    (before ++ inner ++ after).hasBlank = true := by
  rcases hcontext with hne | hne
  · simp [hbefore.hasBlank hne]
  · simp [hafter.hasBlank hne]

theorem lexemes_eq_splitOnP {inner : Text} (h : inner.hasBlank = true ∨ inner.length = 1) :
    lexemes inner = inner.splitOnP isBlank := by
  cases hblank : inner.hasBlank with
  | true => exact lexemes_of_hasBlank hblank
  | false =>
      have hlength : inner.length = 1 := h.resolve_left (by simp [hblank])
      obtain ⟨c, rfl⟩ := List.length_eq_one_iff.mp hlength
      have hunbroken : Unbroken [c] := by simpa [Unbroken] using hblank
      rw [lexemes_of_not_hasBlank hblank, splitOnP_unbroken hunbroken]
      rfl

theorem unbroken_decimal (value : Int) : Unbroken (decimal value) := by
  rw [← Numeral.text_ofInt]
  exact Numeral.unbroken_text _

theorem decimal_ne_nil (value : Int) : decimal value ≠ [] := by
  rw [← Numeral.text_ofInt]
  exact fun hnil => (Numeral.ofInt value).digits_ne_nil (List.append_eq_nil_iff.mp hnil).2

/-- **Values in place of sub-expressions.** In a text between white space, a
sub-expression that has a value may be replaced by the decimal form of the value: the
whole comes to the same value, or fails with the same diagnostic, or has the same
overlong literal. -/
theorem evaluate_replace_by_value {before inner after : Text} {skipEmpty : Bool} {value : Int}
    (hbefore : EndsBlank before) (hafter : StartsBlank after)
    (hcontext : before ≠ [] ∨ after ≠ []) (hinner : inner.hasBlank = true ∨ inner.length = 1)
    (hvalue : evaluate inner skipEmpty = .ok (.success value)) :
    (evaluate (before ++ inner ++ after) skipEmpty).map Outcome.verdict =
      (evaluate (before ++ decimal value ++ after) skipEmpty).map Outcome.verdict := by
  obtain ⟨lefts, rights, hsplit⟩ := exists_splitOnP_context hbefore hafter
  have hlexemes (part : Text) :
      lexemes (before ++ part ++ after) = lefts ++ part.splitOnP isBlank ++ rights := by
    rw [lexemes_of_hasBlank (hasBlank_context hbefore hafter hcontext part), hsplit]
  have hinnerJudged := judge_of_evaluate hvalue
  rw [lexemes_eq_splitOnP hinner] at hinnerJudged
  have hdecimalJudged := judge_decimal (inRange_of_evaluate hvalue)
  rw [map_verdict_evaluate, map_verdict_evaluate, hlexemes, hlexemes,
    splitOnP_unbroken (unbroken_decimal value), kept_append, kept_append, kept_append, kept_append,
    kept_singleton (decimal_ne_nil value)]
  exact judge_replace hinnerJudged hdecimalJudged _ _

/-- In `7 2 2 - /` the difference may be written as `0`: seven is divided by zero either
way. -/
theorem evaluate_difference_as_zero :
    evaluate ['2', ' ', '2', ' ', '-'] false = .ok (.success 0) ∧
    (evaluate ['7', ' ', '2', ' ', '2', ' ', '-', ' ', '/'] false).map Outcome.verdict =
      (evaluate ['7', ' ', '0', ' ', '/'] false).map Outcome.verdict := by
  have hvalue : evaluate ['2', ' ', '2', ' ', '-'] false = .ok (.success 0) := by decide
  refine ⟨hvalue, ?_⟩
  have hbefore : EndsBlank ['7', ' '] := Or.inr ⟨['7'], ' ', rfl, rfl⟩
  have hafter : StartsBlank [' ', '/'] := Or.inr ⟨' ', ['/'], rfl, rfl⟩
  exact evaluate_replace_by_value hbefore hafter (Or.inl (List.cons_ne_nil _ _)) (Or.inl rfl) hvalue

end ReversePolish
