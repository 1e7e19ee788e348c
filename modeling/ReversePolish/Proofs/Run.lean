import Mathlib.Data.List.Induction
import ReversePolish.Machine

/-!
# ReversePolish.Proofs.Run

What **one token** can do to a stack, and what a row of tokens can.

`step_ok_inv` and `step_error_inv` say everything about a step that acts and
about a step that stops the machine; the facts about whole runs are read off
these two, not off `step` itself. `run_induction` lifts what one step preserves
to a whole run, and the last section says what a run makes of an expression.
-/

namespace ReversePolish

namespace Machine

/-! ### Tokens that act -/

theorem step_operand {token : Token} {value : Int} (h : token.meaning = .operand value)
    (stack : Stack) : step token stack = .ok (value :: stack) := by
  simp only [step, h]

theorem step_operator {token : Token} {op : Operator} (h : token.meaning = .operator op)
    (stack : Stack) : step token stack = operate token.lexeme op stack := by
  simp only [step, h]

/-- Where an operator has a result, the divisor has passed. -/
theorem operate_some {op : Operator} {left right value : Int}
    (h : op.apply left right = some value) (lexeme : Text) (rest : Stack) :
    operate lexeme op (right :: left :: rest) = .ok (value :: rest) := by
  have hdivisor : ¬ (op.divides = true ∧ right = 0) := by
    intro hzero
    rw [Operator.apply_eq_none_iff.mpr hzero] at h
    cases h
  have hresult : op.result left right hdivisor = value :=
    Option.some.inj ((Operator.some_result hdivisor).trans h)
  rw [operate, dif_neg hdivisor, hresult]

theorem operate_zero {op : Operator} (h : op.divides = true) (lexeme : Text) (left : Int)
    (rest : Stack) :
    operate lexeme op (0 :: left :: rest) = .error (.divisionByZero lexeme left) :=
  dif_pos ⟨h, rfl⟩

/-- Invert a step that acts: it pushed an operand, or it replaced the two
topmost values by the result of an operator. -/
theorem step_ok_inv {token : Token} {stack next : Stack} (h : step token stack = .ok next) :
    (∃ value, token.meaning = .operand value ∧ next = value :: stack) ∨
      ∃ op left right rest value, token.meaning = .operator op ∧
        stack = right :: left :: rest ∧ op.apply left right = some value ∧
        next = value :: rest := by
  cases hm : token.meaning with
  | operand value =>
      rw [step_operand hm] at h
      cases h
      exact Or.inl ⟨value, rfl, rfl⟩
  | operator op =>
      rw [step_operator hm] at h
      match stack with
      | [] => simp [operate] at h
      | [_] => simp [operate] at h
      | right :: left :: rest =>
          cases ha : op.apply left right with
          | none =>
              obtain ⟨hdivides, rfl⟩ := Operator.apply_eq_none_iff.mp ha
              rw [operate_zero hdivides] at h
              cases h
          | some value =>
              rw [operate_some ha] at h
              cases h
              exact Or.inr ⟨op, left, right, rest, value, rfl, rfl, ha, rfl⟩
  | unknown => simp [step, hm] at h

/-! ### Tokens that stop the machine -/

theorem kind_refuse (lexeme : Text) : (refuse lexeme).kind = .unknownOperator := by
  unfold refuse
  split <;> rfl

theorem token_refuse (lexeme : Text) : (refuse lexeme).token = some lexeme := by
  unfold refuse
  split <;> rfl

theorem step_unknown {token : Token} (h : token.meaning = .unknown) (stack : Stack) :
    step token stack = .error (refuse token.lexeme) := by
  simp only [step, h]

theorem operate_short {stack : Stack} (h : stack.length < 2) (lexeme : Text) (op : Operator) :
    operate lexeme op stack = .error (.insufficientOperands lexeme stack.length) := by
  match stack, h with
  | [], _ => rfl
  | [_], _ => rfl

/-- Invert a step that stops: an unknown lexeme, an operator on fewer than two
values, or a dividing operator on a zero. There is no fourth reason. -/
theorem step_error_inv {token : Token} {stack : Stack} {fault : Fault}
    (h : step token stack = .error fault) :
    (token.meaning = .unknown ∧ fault = refuse token.lexeme) ∨
      (∃ op, token.meaning = .operator op ∧ stack.length < 2 ∧
        fault = .insufficientOperands token.lexeme stack.length) ∨
      ∃ op left rest, token.meaning = .operator op ∧ op.divides = true ∧
        stack = 0 :: left :: rest ∧ fault = .divisionByZero token.lexeme left := by
  cases hm : token.meaning with
  | operand value =>
      rw [step_operand hm] at h
      cases h
  | operator op =>
      rw [step_operator hm] at h
      by_cases hshort : stack.length < 2
      · rw [operate_short hshort] at h
        cases h
        exact Or.inr (Or.inl ⟨op, rfl, hshort, rfl⟩)
      · match stack, hshort with
        | [], hshort => simp at hshort
        | [_], hshort => simp at hshort
        | right :: left :: rest, _ =>
            cases ha : op.apply left right with
            | some value =>
                rw [operate_some ha] at h
                cases h
            | none =>
                obtain ⟨hdiv, rfl⟩ := Operator.apply_eq_none_iff.mp ha
                rw [operate_zero hdiv] at h
                cases h
                exact Or.inr (Or.inr ⟨op, left, rest, rfl, hdiv, rfl, rfl⟩)
  | unknown =>
      rw [step_unknown hm] at h
      cases h
      exact Or.inl ⟨rfl, rfl⟩

/-! ### Runs -/

theorem run_singleton_ok {token : Token} {stack next : Stack} (h : step token stack = .ok next) :
    run [token] stack = .ok next := by
  rw [run_cons_ok h, run_nil]

theorem run_append_ok {first : List Token} {stack middle : Stack}
    (h : run first stack = .ok middle) (second : List Token) :
    run (first ++ second) stack = run second middle := by
  rw [run_append, h]
  rfl

theorem run_append_error {first : List Token} {stack : Stack} {stop : Stop}
    (h : run first stack = .error stop) (second : List Token) :
    run (first ++ second) stack = .error stop := by
  rw [run_append, h]
  rfl

/-- A run that goes through went through every part of it. -/
theorem run_append_inv {first second : List Token} {stack final : Stack}
    (h : run (first ++ second) stack = .ok final) :
    ∃ middle, run first stack = .ok middle ∧ run second middle = .ok final := by
  cases hfirst : run first stack with
  | ok middle => exact ⟨middle, rfl, by rwa [run_append_ok hfirst] at h⟩
  | error stop =>
      rw [run_append_error hfirst] at h
      cases h

/-- Lift what one step preserves to a whole run. -/
theorem run_induction {motive : Stack → Stack → List Token → Prop}
    (refl : ∀ stack, motive stack stack [])
    (snoc : ∀ {start stack next consumed token}, motive start stack consumed →
      step token stack = .ok next → motive start next (consumed ++ [token]))
    {tokens : List Token} {start final : Stack} (h : run tokens start = .ok final) :
    motive start final tokens := by
  -- The induction goes from the last token, so that the motive speaks of what was consumed.
  induction tokens using List.reverseRecOn generalizing final with
  | nil =>
      rw [run_nil] at h
      cases h
      exact refl start
  | append_singleton consumed token ih =>
      obtain ⟨middle, hconsumed, hlast⟩ := run_append_inv h
      cases hstep : step token middle with
      | ok next =>
          rw [run_singleton_ok hstep] at hlast
          cases hlast
          exact snoc (ih hconsumed) hstep
      | error fault =>
          rw [run_cons_error hstep] at hlast
          cases hlast

/-- Invert a run that is stopped: the tokens before the one that stops it are consumed,
and the fault is found at the position of that one. -/
theorem run_error_inv {tokens : List Token} {start : Stack} {stop : Stop}
    (h : run tokens start = .error stop) :
    ∃ before token after stack, tokens = before ++ token :: after ∧
      run before start = .ok stack ∧ step token stack = .error stop.fault ∧
      stop.position = token.start := by
  induction tokens generalizing start with
  | nil => cases h
  | cons token rest ih =>
      cases hstep : step token start with
      | error fault =>
          rw [run_cons_error hstep] at h
          cases h
          exact ⟨[], token, rest, start, rfl, rfl, hstep, rfl⟩
      | ok next =>
          rw [run_cons_ok hstep] at h
          obtain ⟨before, token', after, stack, rfl, hbefore, hfault, hposition⟩ := ih h
          refine ⟨token :: before, token', after, stack, rfl, ?_, hfault, hposition⟩
          rw [run_cons_ok hstep, hbefore]

/-! ### Values beneath

What lies beneath the values that the tokens use is passed on as it is. -/

theorem step_above {token : Token} {stack next : Stack} (h : step token stack = .ok next)
    (below : Stack) : step token (stack ++ below) = .ok (next ++ below) := by
  rcases step_ok_inv h with
    ⟨value, hm, rfl⟩ | ⟨op, left, right, rest, value, hm, rfl, happly, rfl⟩
  · exact step_operand hm (stack ++ below)
  · rw [step_operator hm]
    exact operate_some happly token.lexeme (rest ++ below)

theorem run_above {tokens : List Token} {start final : Stack} (h : run tokens start = .ok final)
    (below : Stack) : run tokens (start ++ below) = .ok (final ++ below) := by
  refine run_induction
    (motive := fun start final tokens => run tokens (start ++ below) = .ok (final ++ below))
    ?_ ?_ h
  · intro stack
    rfl
  · intro start stack next consumed token ih hstep
    rw [run_append_ok ih]
    exact run_singleton_ok (step_above hstep below)

end Machine

/-! ### Positions

A token's position is handed on to the fault that it causes, and does nothing else. -/

/-- The same token at the position that `move` takes it to. -/
def Token.moved (move : Int → Int) (token : Token) : Token :=
  { token with start := move token.start }

namespace Machine

/-- The same fault, found at the position that `move` takes it to. -/
def Stop.moved (move : Int → Int) (stop : Stop) : Stop :=
  { stop with position := move stop.position }

theorem run_moved (move : Int → Int) (tokens : List Token) (stack : Stack) :
    run (tokens.map (Token.moved move)) stack = (run tokens stack).mapError (Stop.moved move) := by
  induction tokens generalizing stack with
  | nil => rfl
  | cons token rest ih =>
      have hstep : step (token.moved move) stack = step token stack := rfl
      rw [List.map_cons]
      cases h : step token stack with
      | ok next => rw [run_cons_ok h, run_cons_ok (hstep.trans h), ih]
      | error fault =>
          rw [run_cons_error h, run_cons_error (hstep.trans h)]
          rfl

end Machine

/-! ### Expressions -/

namespace Machine

theorem Stop.noValue_of_isTellable {stop : Stop} (h : stop.fault.IsTellable) (expression : Text) :
    stop.noValue expression = .failed ⟨stop.fault.diagnostic, ⟨expression, stop.position⟩⟩ := by
  rw [noValue, Fault.tell_of_isTellable h]

theorem Stop.noValue_of_not_isTellable {stop : Stop} (h : ¬ stop.fault.IsTellable)
    (expression : Text) : stop.noValue expression = .untold .integer := by
  rw [noValue, Fault.tell_of_not_isTellable h]

theorem result_eq_ok_iff {tokens : List Token} {length : Nat} {value : Int} :
    result tokens length = .ok value ↔ run tokens [] = .ok [value] := by
  unfold result
  cases run tokens [] with
  | error stop => simp
  | ok stack =>
      match stack with
      | [] => simp
      | [_] => simp
      | _ :: _ :: _ => simp

theorem result_of_run_error {tokens : List Token} {stop : Stop} (h : run tokens [] = .error stop)
    (length : Nat) : result tokens length = .error stop := by
  simp only [result, h]

theorem result_of_run_ok {tokens : List Token} {stack : Stack} (h : run tokens [] = .ok stack)
    (hstack : stack.length ≠ 1) (length : Nat) :
    result tokens length = .error ⟨.malformed stack.length, length⟩ := by
  match stack, hstack with
  | [], _ => simp only [result, h]
  | _ :: _ :: _, _ => simp only [result, h]

end Machine

theorem evaluateTokens_eq_ok_iff {tokens : List Token} {expression : Text} {value : Int} :
    evaluateTokens tokens expression = .ok value ↔ Machine.run tokens [] = .ok [value] := by
  rw [← @Machine.result_eq_ok_iff tokens expression.length, evaluateTokens]
  cases Machine.result tokens expression.length <;> simp [Except.mapError]

theorem evaluateTokens_of_run_error {tokens : List Token} {stop : Machine.Stop}
    (h : Machine.run tokens [] = .error stop) (expression : Text) :
    evaluateTokens tokens expression = .error (stop.noValue expression) := by
  rw [evaluateTokens, Machine.result_of_run_error h]
  rfl

theorem evaluateTokens_of_run_ok {tokens : List Token} {stack : Stack}
    (h : Machine.run tokens [] = .ok stack) (hlength : stack.length ≠ 1) (expression : Text) :
    evaluateTokens tokens expression =
      .error (.failed
        ⟨(Fault.malformed stack.length).diagnostic, ⟨expression, expression.length⟩⟩) := by
  rw [evaluateTokens, Machine.result_of_run_ok h hlength]
  rfl

end ReversePolish
