import ReversePolish.Evaluation
import ReversePolish.Proofs.Run
import ReversePolish.Proofs.Tokenize

/-!
# ReversePolish.Proofs.Range

Every value is a **word**.

An operator leaves a word whatever it is given, so only an operand could bring in
any other value. The operands of an expression do not, because a literal that names
no word is no operand (`hasWordOperands_of_tokenize`). From such operands on, every
stack of a run holds words alone (`holdsWords_of_run`), and so an expression that has
a value has a word (`inRange_of_evaluate`).

A word is short enough to be written. So what stops the machine in an expression can
always be told, and its tokens have an outcome in any case (`evaluate_eq_map`).
-/

namespace ReversePolish

/-- Whether every operand is a word. -/
def HasWordOperands (tokens : List Token) : Prop :=
  ∀ token ∈ tokens, ∀ value, token.meaning = .operand value → Word.InRange value

/-- Whether every value on a stack is a word. -/
def HoldsWords (stack : Stack) : Prop := ∀ value ∈ stack, Word.InRange value

theorem holdsWords_nil : HoldsWords [] := fun _ hmem => absurd hmem List.not_mem_nil

/-! ### Operands of an expression -/

theorem inRange_of_ofLexeme {lexeme : Text} {value : Int}
    (h : Meaning.ofLexeme lexeme = .ok (.operand value)) : Word.InRange value :=
  Literal.inRange_of_read (ofLexeme_eq_operand_iff.mp h)

theorem hasWordOperands_of_tokenize {expression : Text} {skipEmpty : Bool} {tokens : List Token}
    (h : tokenize expression skipEmpty = .ok tokens) : HasWordOperands tokens := by
  intro token hmem value hvalue
  have hmeaning := ofLexeme_of_mem_tokenize h hmem
  rw [hvalue] at hmeaning
  exact inRange_of_ofLexeme hmeaning

/-! ### Runs -/

namespace Machine

theorem holdsWords_of_step {token : Token} {stack next : Stack}
    (htoken : ∀ value, token.meaning = .operand value → Word.InRange value)
    (hstack : HoldsWords stack) (h : step token stack = .ok next) : HoldsWords next := by
  rcases step_ok_inv h with
    ⟨value, hm, rfl⟩ | ⟨op, left, right, rest, value, -, rfl, happly, rfl⟩
  · exact List.forall_mem_cons.mpr ⟨htoken value hm, hstack⟩
  · have hrest : HoldsWords rest := fun v hv => hstack v (by simp [hv])
    exact List.forall_mem_cons.mpr ⟨Operator.inRange_of_apply happly, hrest⟩

theorem holdsWords_of_run {tokens : List Token} {start final : Stack}
    (htokens : HasWordOperands tokens) (hstart : HoldsWords start)
    (h : run tokens start = .ok final) : HoldsWords final := by
  refine run_induction
    (motive := fun start final tokens =>
      HasWordOperands tokens → HoldsWords start → HoldsWords final)
    ?_ ?_ h htokens hstart
  · intro stack _ hstack
    exact hstack
  · intro start stack next consumed token ih hstep hconsumed hstart
    have hstack : HoldsWords stack :=
      ih (fun t ht => hconsumed t (List.mem_append_left _ ht)) hstart
    exact holdsWords_of_step (hconsumed token (by simp)) hstack hstep

end Machine

/-! ### Values -/

theorem inRange_of_evaluateTokens {tokens : List Token} {expression : Text} {value : Int}
    (htokens : HasWordOperands tokens) (h : evaluateTokens tokens expression = .ok value) :
    Word.InRange value := by
  have hrun := evaluateTokens_eq_ok_iff.mp h
  exact Machine.holdsWords_of_run htokens holdsWords_nil hrun value List.mem_cons_self

/-! ### Outcomes -/

namespace Machine

theorem isTellable_of_run_error {tokens : List Token} {stop : Stop}
    (htokens : HasWordOperands tokens) (h : run tokens [] = .error stop) :
    stop.fault.IsTellable := by
  obtain ⟨before, token, after, stack, rfl, hbefore, hstep, -⟩ := run_error_inv h
  have hwords : HoldsWords stack :=
    holdsWords_of_run (fun t ht => htokens t (List.mem_append_left _ ht)) holdsWords_nil hbefore
  intro lexeme dividend hfault
  rw [hfault] at hstep
  rcases step_error_inv hstep with
    ⟨-, hrefuse⟩ | ⟨op, -, -, hshort⟩ | ⟨op, left, rest, -, -, rfl, hzero⟩
  · exact absurd (congrArg Fault.kind hrefuse) (by rw [kind_refuse]; simp [Fault.kind])
  · cases hshort
  · cases hzero
    exact Literal.natAbs_lt_of_inRange (hwords dividend (by simp))

/-- The outcome of tokens, where whatever stops them can be told. -/
def outcome (tokens : List Token) (expression : Text) : Outcome :=
  match result tokens expression.length with
  | .ok value => .success value
  | .error stop => .failure ⟨stop.fault.diagnostic, some ⟨expression, stop.position⟩⟩

variable {tokens : List Token}

theorem outcome_of_run_error {stop : Stop} (h : run tokens [] = .error stop) (expression : Text) :
    outcome tokens expression =
      .failure ⟨stop.fault.diagnostic, some ⟨expression, stop.position⟩⟩ := by
  simp only [outcome, result_of_run_error h]

theorem outcome_of_run_value {value : Int} (h : run tokens [] = .ok [value]) (expression : Text) :
    outcome tokens expression = .success value := by
  simp only [outcome, result_eq_ok_iff.mpr h]

theorem outcome_of_run_ok {stack : Stack} (h : run tokens [] = .ok stack)
    (hstack : stack.length ≠ 1) (expression : Text) :
    outcome tokens expression =
      .failure ⟨(Fault.malformed stack.length).diagnostic,
        some ⟨expression, expression.length⟩⟩ := by
  simp only [outcome, result_of_run_ok h hstack]

theorem verdict_outcome_eq_ok_iff {expression : Text} {value : Int} :
    (outcome tokens expression).verdict = .ok value ↔ run tokens [] = .ok [value] := by
  rw [← @result_eq_ok_iff tokens expression.length, outcome]
  cases result tokens expression.length <;> simp [Outcome.verdict]

theorem ofResult_evaluateTokens (htokens : HasWordOperands tokens) (expression : Text) :
    Outcome.ofResult (evaluateTokens tokens expression) = .ok (outcome tokens expression) := by
  cases hrun : run tokens [] with
  | error stop =>
      rw [evaluateTokens_of_run_error hrun, outcome_of_run_error hrun,
        Stop.noValue_of_isTellable (isTellable_of_run_error htokens hrun)]
      rfl
  | ok stack =>
      by_cases hstack : stack.length = 1
      · obtain ⟨value, rfl⟩ := List.length_eq_one_iff.mp hstack
        rw [evaluateTokens_eq_ok_iff.mpr hrun, outcome_of_run_value hrun]
        rfl
      · rw [evaluateTokens_of_run_ok hrun hstack, outcome_of_run_ok hrun hstack]
        rfl

end Machine

/-- Only reading can keep an expression from having an outcome. -/
theorem evaluate_eq_map (expression : Text) (skipEmpty : Bool) :
    evaluate expression skipEmpty =
      (tokenize expression skipEmpty).map fun tokens => Machine.outcome tokens expression := by
  unfold evaluate
  cases htokens : tokenize expression skipEmpty with
  | error overlong => rfl
  | ok tokens =>
      exact Machine.ofResult_evaluateTokens (hasWordOperands_of_tokenize htokens) expression

theorem evaluate_of_tokenize {expression : Text} {skipEmpty : Bool} {tokens : List Token}
    (h : tokenize expression skipEmpty = .ok tokens) :
    evaluate expression skipEmpty = .ok (Machine.outcome tokens expression) := by
  rw [evaluate_eq_map, h]
  rfl

theorem evaluate_eq_success_iff {expression : Text} {skipEmpty : Bool} {value : Int} :
    evaluate expression skipEmpty = .ok (.success value) ↔
      ∃ tokens, tokenize expression skipEmpty = .ok tokens ∧
        evaluateTokens tokens expression = .ok value := by
  rw [evaluate_eq_map]
  cases tokenize expression skipEmpty with
  | error overlong => simp [Except.map]
  | ok tokens =>
      have hvalue : Machine.outcome tokens expression = .success value ↔
          (Machine.outcome tokens expression).verdict = .ok value := by
        cases Machine.outcome tokens expression <;> simp [Outcome.verdict]
      simp only [Except.map, Except.ok.injEq, exists_eq_left', hvalue,
        Machine.verdict_outcome_eq_ok_iff, evaluateTokens_eq_ok_iff]

/-- An expression that has a value has a word. -/
theorem inRange_of_evaluate {expression : Text} {skipEmpty : Bool} {value : Int}
    (h : evaluate expression skipEmpty = .ok (.success value)) : Word.InRange value := by
  obtain ⟨tokens, htokens, hvalue⟩ := evaluate_eq_success_iff.mp h
  exact inRange_of_evaluateTokens (hasWordOperands_of_tokenize htokens) hvalue

end ReversePolish
