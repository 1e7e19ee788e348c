import ReversePolish.Proofs.Overlong
import ReversePolish.Proofs.Position

/-!
# ReversePolish.Proofs.Finality

A failure is **final**: what follows in the expression does not change it.

The machine stops at the first token that is refused, so tokens behind it do nothing. What
is added to an expression behind white space becomes such tokens, and leaves the lexemes
before it what and where they were (`exists_pieces_append`). It can interfere in one way: all
lexemes are read before any of them acts, so with an overlong numeral in what is added
there is no outcome at all (`evaluate_append_of_failure`).

A malformed expression is another matter. It failed at its end, and that is elsewhere now.
-/

namespace ReversePolish

open Text

variable {expression : Text} {blank : Char}

/-- What is added behind white space leaves the pieces before it what they were. -/
theorem exists_pieces_append (hexpression : expression.hasBlank = true)
    (hblank : isBlank blank = true) (added : Text) :
    ∃ after, pieces (expression ++ blank :: added) = pieces expression ++ after := by
  have hwhole : (expression ++ blank :: added).hasBlank = true := by simp [hblank]
  obtain ⟨next, hnext⟩ :=
    exists_placed_append 0 (expression.splitOnP isBlank) (added.splitOnP isBlank)
  refine ⟨placed next (added.splitOnP isBlank), ?_⟩
  rw [pieces_of_hasBlank hwhole, pieces_of_hasBlank hexpression,
    List.splitOnP_append_cons expression added hblank, hnext]

theorem exists_keptPieces_append (hexpression : expression.hasBlank = true)
    (hblank : isBlank blank = true) (added : Text) (skipEmpty : Bool) :
    ∃ after, keptPieces (expression ++ blank :: added) skipEmpty =
      keptPieces expression skipEmpty ++ after := by
  obtain ⟨after, hafter⟩ := exists_pieces_append hexpression hblank added
  unfold keptPieces
  rw [hafter]
  split
  · exact ⟨_, List.filter_append _ _⟩
  · exact ⟨after, rfl⟩

/-- The tokens of what is added follow those that were there. -/
theorem exists_tokens_append (hexpression : expression.hasBlank = true)
    (hblank : isBlank blank = true) {added : Text} {skipEmpty : Bool} {tokens tokens' : List Token}
    (htokens : tokenize expression skipEmpty = .ok tokens)
    (htokens' : tokenize (expression ++ blank :: added) skipEmpty = .ok tokens') :
    ∃ after, tokens' = tokens ++ after := by
  obtain ⟨after, hafter⟩ := exists_keptPieces_append hexpression hblank added skipEmpty
  rw [tokenize, hafter] at htokens'
  obtain ⟨before, rest, hbefore, -, rfl⟩ := mapM_append_inv htokens'
  obtain rfl : tokens = before := Except.ok.inj (htokens.symm.trans hbefore)
  exact ⟨rest, rfl⟩

/-- What is added to a readable expression decides whether the whole can be read. -/
theorem holdsOverlong_append_iff (hexpression : expression.hasBlank = true)
    (hreadable : ¬ HoldsOverlong expression) (hblank : isBlank blank = true) (added : Text) :
    HoldsOverlong (expression ++ blank :: added) ↔
      ∃ numeral : Numeral, numeral.IsOverlong ∧ StandsIn numeral.text added := by
  constructor
  · rintro ⟨-, numeral, hnumeral, hstands⟩
    rw [standsIn_append_iff numeral.unbroken_text hblank] at hstands
    refine ⟨numeral, hnumeral, hstands.resolve_left ?_⟩
    exact fun hbefore => hreadable ⟨hexpression, numeral, hnumeral, hbefore⟩
  · rintro ⟨numeral, hnumeral, hstands⟩
    refine ⟨by simp [hblank], numeral, hnumeral, ?_⟩
    rw [standsIn_append_iff numeral.unbroken_text hblank]
    exact Or.inr hstands

/-- **A failure is final.** Where an expression with white space fails at one of its lexemes,
it does so whatever is added to it behind white space: the diagnostic is the same, and so
is the place. There is one exception, and then there is no outcome: that an overlong
numeral is among the lexemes of what is added. -/
theorem evaluate_append_of_failure {skipEmpty : Bool} {reason : Failure}
    (hexpression : expression.hasBlank = true)
    (hfailure : evaluate expression skipEmpty = .ok (.failure reason))
    (hkind : reason.diagnostic.kind ≠ .malformedExpression) (hblank : isBlank blank = true)
    (added : Text) :
    ((∃ overlong, evaluate (expression ++ blank :: added) skipEmpty = .error overlong) ↔
      ∃ numeral : Numeral, numeral.IsOverlong ∧ StandsIn numeral.text added) ∧
    ((¬ ∃ numeral : Numeral, numeral.IsOverlong ∧ StandsIn numeral.text added) →
      ∃ index, reason.location = some ⟨expression, index⟩ ∧
        evaluate (expression ++ blank :: added) skipEmpty =
          .ok (.failure ⟨reason.diagnostic, some ⟨expression ++ blank :: added, index⟩⟩)) := by
  have hreadable : ¬ HoldsOverlong expression := exists_outcome_iff.mp ⟨_, hfailure⟩
  have hholds := holdsOverlong_append_iff hexpression hreadable hblank added
  refine ⟨exists_error_iff_holdsOverlong.trans hholds, ?_⟩
  intro hnone
  rw [← hholds] at hnone
  obtain ⟨tokens, htokens, hcause⟩ := run_of_evaluate_failure hfailure
  have hexists : ∃ tokens, tokenize (expression ++ blank :: added) skipEmpty = .ok tokens :=
    exists_tokens_iff_not_holdsOverlong.mpr hnone
  obtain ⟨tokens', htokens'⟩ := hexists
  obtain ⟨after, rfl⟩ := exists_tokens_append hexpression hblank htokens htokens'
  rcases hcause with ⟨stop, hrun, rfl⟩ | ⟨stack, -, rfl⟩
  · exact ⟨stop.position, rfl, evaluate_of_run_error htokens' (Machine.run_append_error hrun after)⟩
  · exact absurd rfl hkind

/-- Behind a division by zero, an operator without operands is not told of, but a zero of
4301 digits is still too long. -/
theorem evaluate_behind_division_by_zero :
    let division : Text := ['1', ' ', '0', ' ', '/']
    let told : Diagnostic := (Fault.divisionByZero ['/'] 1).diagnostic
    evaluate division false = .ok (.failure ⟨told, some ⟨division, 4⟩⟩) ∧
      evaluate (division ++ '\t' :: ['+', '+']) false =
        .ok (.failure ⟨told, some ⟨division ++ '\t' :: ['+', '+'], 4⟩⟩) ∧
      ∃ overlong, evaluate (division ++ ' ' :: (Numeral.zeros 4300).text) false =
        .error overlong := by
  intro division told
  have hfailure : evaluate division false = .ok (.failure ⟨told, some ⟨division, 4⟩⟩) := by decide
  have hkind : told.kind ≠ .malformedExpression := by decide
  have htab : isBlank '\t' = true := rfl
  have hspace : isBlank ' ' = true := rfl
  refine ⟨hfailure, ?_, ?_⟩
  · obtain ⟨-, hfinal⟩ := evaluate_append_of_failure rfl hfailure hkind htab ['+', '+']
    obtain ⟨index, hlocation, hevaluate⟩ := hfinal (not_standsIn_of_length_le (by decide))
    cases hlocation
    exact hevaluate
  · obtain ⟨herror, -⟩ :=
      evaluate_append_of_failure rfl hfailure hkind hspace (Numeral.zeros 4300).text
    refine herror.mpr ⟨.zeros 4300, Numeral.isOverlong_zeros (Nat.le_refl 4300), [], [], ?_⟩
    exact ⟨(List.append_nil _).symm, Or.inl rfl, Or.inl rfl⟩

end ReversePolish
