import ReversePolish.Proofs.Offence
import ReversePolish.Proofs.Range

/-!
# ReversePolish.Proofs.Position

**Where** a failure is found, when one row of tokens stands in two expressions.

What tokens come to does not depend on their positions, and a failure is found at the
position of the token that caused it, or at the end of the expression. So if every
token of one row has its counterpart in the other, the two outcomes are the same up to
the place, and the place follows the tokens (`moved_outcome`).
-/

namespace ReversePolish

/-- Two outcomes that differ in the place of a failure only: at a token, `move` takes one
position to the other; otherwise each failure is at the end of its own expression. -/
inductive Outcome.Moved (move : Int → Int) (expression expression' : Text) :
    Outcome → Outcome → Prop
  | success (value : Int) : Moved move expression expression' (.success value) (.success value)
  | atToken {diagnostic : Diagnostic} (position : Int) :
      diagnostic.kind ≠ .malformedExpression →
      Moved move expression expression'
        (.failure ⟨diagnostic, some ⟨expression, position⟩⟩)
        (.failure ⟨diagnostic, some ⟨expression', move position⟩⟩)
  | atEnd {diagnostic : Diagnostic} :
      diagnostic.kind = .malformedExpression →
      Moved move expression expression'
        (.failure ⟨diagnostic, some ⟨expression, expression.length⟩⟩)
        (.failure ⟨diagnostic, some ⟨expression', expression'.length⟩⟩)

theorem Outcome.Moved.verdict_eq {move : Int → Int} {expression expression' : Text}
    {outcome outcome' : Outcome} (h : Outcome.Moved move expression expression' outcome outcome') :
    outcome.verdict = outcome'.verdict := by
  cases h <;> rfl

namespace Machine

/-- Only the end of an expression can show that it is malformed. -/
theorem kind_of_step_error {token : Token} {stack : Stack} {fault : Fault}
    (h : step token stack = .error fault) : fault.kind ≠ .malformedExpression := by
  rcases step_error_inv h with
    ⟨-, rfl⟩ | ⟨op, -, -, rfl⟩ | ⟨op, left, rest, -, -, -, rfl⟩
  · simp [kind_refuse]
  · simp [Fault.kind]
  · simp [Fault.kind]

/-- A fault is about the lexeme of the token that causes it. -/
theorem token_of_step_error {token : Token} {stack : Stack} {fault : Fault}
    (h : step token stack = .error fault) : fault.token = some token.lexeme := by
  rcases step_error_inv h with
    ⟨-, rfl⟩ | ⟨op, -, -, rfl⟩ | ⟨op, left, rest, -, -, -, rfl⟩
  · exact token_refuse token.lexeme
  · rfl
  · rfl

theorem kind_of_run_error {tokens : List Token} {stack : Stack} {stop : Stop}
    (h : run tokens stack = .error stop) : stop.fault.kind ≠ .malformedExpression := by
  obtain ⟨before, token, after, stack', -, -, hstep, -⟩ := run_error_inv h
  exact kind_of_step_error hstep

end Machine

variable {expression : Text} {skipEmpty : Bool} {tokens : List Token}

/-- Tokens that are stopped make a failure at the token that stopped them. -/
theorem evaluate_of_run_error {stop : Machine.Stop}
    (htokens : tokenize expression skipEmpty = .ok tokens)
    (hrun : Machine.run tokens [] = .error stop) :
    evaluate expression skipEmpty =
      .ok (.failure ⟨stop.fault.diagnostic, some ⟨expression, stop.position⟩⟩) := by
  rw [evaluate_of_tokenize htokens, Machine.outcome_of_run_error hrun]

/-- Invert a failure: the tokens were stopped, or all were consumed and did not leave one
value. -/
theorem run_of_evaluate_failure {reason : Failure}
    (h : evaluate expression skipEmpty = .ok (.failure reason)) :
    ∃ tokens, tokenize expression skipEmpty = .ok tokens ∧
      ((∃ stop, Machine.run tokens [] = .error stop ∧
          reason = ⟨stop.fault.diagnostic, some ⟨expression, stop.position⟩⟩) ∨
        ∃ stack, Machine.run tokens [] = .ok stack ∧
          reason = ⟨(Fault.malformed stack.length).diagnostic,
            some ⟨expression, expression.length⟩⟩) := by
  cases htokens : tokenize expression skipEmpty with
  | error overlong =>
      rw [evaluate_eq_map, htokens] at h
      cases h
  | ok tokens =>
      refine ⟨tokens, rfl, ?_⟩
      rw [evaluate_of_tokenize htokens] at h
      cases hrun : Machine.run tokens [] with
      | error stop =>
          rw [Machine.outcome_of_run_error hrun] at h
          cases h
          exact Or.inl ⟨stop, rfl, rfl⟩
      | ok stack =>
          by_cases hlength : stack.length = 1
          · obtain ⟨value, rfl⟩ := List.length_eq_one_iff.mp hlength
            rw [Machine.outcome_of_run_value hrun] at h
            cases h
          · rw [Machine.outcome_of_run_ok hrun hlength] at h
            cases h
            exact Or.inr ⟨stack, rfl, rfl⟩

/-- Invert a failure: a token was refused where all before it were consumed, and the
failure is at that token; or all were consumed, and the failure is at the end. -/
theorem evaluate_failure_inv {reason : Failure}
    (h : evaluate expression skipEmpty = .ok (.failure reason)) :
    ∃ tokens, tokenize expression skipEmpty = .ok tokens ∧
      ((∃ token ∈ tokens, ∃ stack fault, Machine.step token stack = .error fault ∧
          reason = ⟨fault.diagnostic, some ⟨expression, token.start⟩⟩) ∨
        ∃ found, reason =
          ⟨(Fault.malformed found).diagnostic, some ⟨expression, expression.length⟩⟩) := by
  obtain ⟨tokens, htokens, hcause⟩ := run_of_evaluate_failure h
  refine ⟨tokens, htokens, ?_⟩
  rcases hcause with ⟨stop, hrun, rfl⟩ | ⟨stack, -, rfl⟩
  · obtain ⟨before, token, after, stack, rfl, -, hstep, hposition⟩ := Machine.run_error_inv hrun
    exact Or.inl ⟨token, by simp, stack, stop.fault, hstep, by rw [hposition]⟩
  · exact Or.inr ⟨stack.length, rfl⟩

/-- Tokens that were moved come to the same, and their failures move with them. -/
theorem moved_outcome (move : Int → Int) (tokens : List Token) (expression expression' : Text) :
    Outcome.Moved move expression expression' (Machine.outcome tokens expression)
      (Machine.outcome (tokens.map (Token.moved move)) expression') := by
  have hmoved := Machine.run_moved move tokens []
  cases hrun : Machine.run tokens [] with
  | error stop =>
      rw [hrun] at hmoved
      rw [Machine.outcome_of_run_error hrun, Machine.outcome_of_run_error hmoved]
      exact .atToken stop.position (Machine.kind_of_run_error hrun)
  | ok stack =>
      rw [hrun] at hmoved
      by_cases hlength : stack.length = 1
      · obtain ⟨value, rfl⟩ := List.length_eq_one_iff.mp hlength
        rw [Machine.outcome_of_run_value hrun, Machine.outcome_of_run_value hmoved]
        exact .success value
      · rw [Machine.outcome_of_run_ok hrun hlength, Machine.outcome_of_run_ok hmoved hlength]
        exact .atEnd rfl

end ReversePolish
