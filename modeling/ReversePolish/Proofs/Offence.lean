import Mathlib.Data.Nat.Find
import ReversePolish.Proofs.Run

/-!
# ReversePolish.Proofs.Offence

**Which token is to blame** when an expression has no value.

The number of values that wait on the stack needs no machine: it is the number of
operands less the number of operators so far (`depth`). A token **offends** when
it is unknown, when it is an operator where fewer than two values wait, or when it
divides while the value on top is zero. The machine stops at the leftmost token
that offends and at no other, and with none it consumes all of them.

Nothing is asked of the tokens here: lexemes, positions and meanings may disagree,
and values may be of any size.
-/

namespace ReversePolish

/-- Whether a token pushes a value of its own. -/
def Token.isOperand (token : Token) : Bool :=
  match token.meaning with
  | .operand _ => true
  | _ => false

/-- Whether a token combines two values. -/
def Token.isOperator (token : Token) : Bool :=
  match token.meaning with
  | .operator _ => true
  | _ => false

namespace Machine

/-! ### Counting values -/

/-- The number of operands less the number of operators. -/
def surplus (tokens : List Token) : Int :=
  tokens.countP Token.isOperand - tokens.countP Token.isOperator

@[simp] theorem surplus_nil : surplus [] = 0 := rfl

theorem surplus_snoc_operand {token : Token} {value : Int} (h : token.meaning = .operand value)
    (tokens : List Token) : surplus (tokens ++ [token]) = surplus tokens + 1 := by
  simp only [surplus, List.countP_append, List.countP_singleton, Token.isOperand,
    Token.isOperator, h]
  simp
  omega

theorem surplus_snoc_operator {token : Token} {op : Operator} (h : token.meaning = .operator op)
    (tokens : List Token) : surplus (tokens ++ [token]) = surplus tokens - 1 := by
  simp only [surplus, List.countP_append, List.countP_singleton, Token.isOperand,
    Token.isOperator, h]
  simp
  omega

/-- The stack grows by the surplus of what was consumed. -/
theorem length_of_run {tokens : List Token} {start final : Stack}
    (h : run tokens start = .ok final) : (final.length : Int) = start.length + surplus tokens := by
  refine run_induction
    (motive := fun start final tokens => (final.length : Int) = start.length + surplus tokens)
    ?_ ?_ h
  · simp
  · intro start stack next consumed token ih hstep
    rcases step_ok_inv hstep with
      ⟨value, hm, rfl⟩ | ⟨op, left, right, rest, value, hm, rfl, -, rfl⟩
    · rw [surplus_snoc_operand hm, List.length_cons]
      omega
    · rw [surplus_snoc_operator hm]
      simp only [List.length_cons] at ih ⊢
      omega

/-- Once something was consumed, a value waits: an operator takes two values but
gives one back. -/
theorem eq_nil_iff_of_run {tokens : List Token} {final : Stack} (h : run tokens [] = .ok final) :
    final = [] ↔ tokens = [] := by
  constructor
  · intro hfinal
    have hcases : tokens = [] ∨ final ≠ [] := by
      refine run_induction (motive := fun _ final tokens => tokens = [] ∨ final ≠ []) ?_ ?_ h
      · exact fun _ => Or.inl rfl
      · intro start stack next consumed token _ hstep
        right
        rcases step_ok_inv hstep with ⟨value, -, rfl⟩ | ⟨_, _, _, _, value, -, -, -, rfl⟩ <;> simp
    exact hcases.resolve_right (not_not.mpr hfinal)
  · rintro rfl
    cases h
    rfl

/-! ### Offending tokens -/

/-- The number of values that wait when the first `i` tokens are consumed. -/
def depth (tokens : List Token) (i : Nat) : Int := surplus (tokens.take i)

/-- Whether the first `i` tokens are consumed and leave a zero on top. -/
def ZeroOnTop (tokens : List Token) (i : Nat) : Prop :=
  ∃ rest, run (tokens.take i) [] = .ok (0 :: rest)

/-- Whether the token at index `i` cannot act. -/
def Offends (tokens : List Token) (i : Nat) : Prop :=
  ∃ token, tokens[i]? = some token ∧
    (token.meaning = .unknown ∨ ∃ op, token.meaning = .operator op ∧
      (depth tokens i < 2 ∨ op.divides = true ∧ ZeroOnTop tokens i))

theorem not_offends_of_operand {tokens : List Token} {i : Nat} {token : Token} {value : Int}
    (hget : tokens[i]? = some token) (hm : token.meaning = .operand value) :
    ¬ Offends tokens i := by
  intro h
  obtain ⟨token', hget', hoffends⟩ := h
  obtain rfl : token = token' := Option.some.inj (hget.symm.trans hget')
  rcases hoffends with hunknown | ⟨op, hop, -⟩
  · exact absurd (hm.symm.trans hunknown) nofun
  · exact absurd (hm.symm.trans hop) nofun

theorem depth_eq_length {tokens : List Token} {i : Nat} {stack : Stack}
    (h : run (tokens.take i) [] = .ok stack) : depth tokens i = stack.length := by
  have hlength := length_of_run h
  simp only [List.length_nil, Int.natCast_zero, Int.zero_add] at hlength
  exact hlength.symm

/-- A token that offends is refused by the machine that reaches it, and the
other way round. -/
theorem offends_iff_step_error {tokens : List Token} {i : Nat} {token : Token} {stack : Stack}
    (hget : tokens[i]? = some token) (hrun : run (tokens.take i) [] = .ok stack) :
    Offends tokens i ↔ ∃ fault, step token stack = .error fault := by
  have hdepth := depth_eq_length hrun
  constructor
  · intro h
    obtain ⟨token', hget', hoffends⟩ := h
    obtain rfl : token = token' := Option.some.inj (hget.symm.trans hget')
    rcases hoffends with hm | ⟨op, hm, hshort | ⟨hdivides, rest, hzero⟩⟩
    · exact ⟨_, step_unknown hm stack⟩
    · have hlength : stack.length < 2 := by omega
      exact ⟨_, (step_operator hm stack).trans (operate_short hlength _ _)⟩
    · -- A zero alone on the stack is too few values before it is a divisor.
      obtain rfl : stack = 0 :: rest := Except.ok.inj (hrun.symm.trans hzero)
      cases rest with
      | nil => exact ⟨_, (step_operator hm _).trans (operate_short (by simp) _ _)⟩
      | cons left rest => exact ⟨_, (step_operator hm _).trans (operate_zero hdivides _ _ _)⟩
  · intro h
    obtain ⟨fault, hstep⟩ := h
    refine ⟨token, hget, ?_⟩
    rcases step_error_inv hstep with
      ⟨hm, -⟩ | ⟨op, hm, hshort, -⟩ | ⟨op, left, rest, hm, hdivides, rfl, -⟩
    · exact Or.inl hm
    · exact Or.inr ⟨op, hm, Or.inl (by omega)⟩
    · exact Or.inr ⟨op, hm, Or.inr ⟨hdivides, left :: rest, hrun⟩⟩

theorem take_succ_eq {tokens : List Token} {i : Nat} {token : Token}
    (h : tokens[i]? = some token) : tokens.take (i + 1) = tokens.take i ++ [token] := by
  rw [List.take_add_one, h]
  rfl

/-- With no offending token among the first `i`, the machine consumes them. -/
theorem exists_run_take {tokens : List Token} {i : Nat} (h : ∀ j < i, ¬ Offends tokens j) :
    ∃ stack, run (tokens.take i) [] = .ok stack := by
  induction i with
  | zero => exact ⟨[], rfl⟩
  | succ i ih =>
      obtain ⟨stack, hrun⟩ := ih fun j hj => h j (Nat.lt_succ_of_lt hj)
      cases hget : tokens[i]? with
      | none =>
          have hend : tokens.length ≤ i := List.getElem?_eq_none_iff.mp hget
          refine ⟨stack, ?_⟩
          rw [List.take_of_length_le (Nat.le_succ_of_le hend)]
          rwa [List.take_of_length_le hend] at hrun
      | some token =>
          rw [take_succ_eq hget, run_append_ok hrun]
          cases hstep : step token stack with
          | ok next => exact ⟨next, run_singleton_ok hstep⟩
          | error fault =>
              exact absurd ((offends_iff_step_error hget hrun).mpr ⟨fault, hstep⟩)
                (h i (Nat.lt_succ_self i))

/-- The machine consumes the first `i` tokens exactly if none of them offends. -/
theorem exists_run_take_iff {tokens : List Token} {i : Nat} :
    (∃ stack, run (tokens.take i) [] = .ok stack) ↔ ∀ j < i, ¬ Offends tokens j := by
  constructor
  · rintro ⟨final, hrun⟩ j hj hoffends
    obtain ⟨token, hget, -⟩ := id hoffends
    have htake : (tokens.take i).take (j + 1) = tokens.take (j + 1) := by
      rw [List.take_take, Nat.min_eq_left hj]
    rw [← List.take_append_drop (j + 1) (tokens.take i), htake] at hrun
    obtain ⟨next, hnext, -⟩ := run_append_inv hrun
    rw [take_succ_eq hget] at hnext
    obtain ⟨stack, hstack, hlast⟩ := run_append_inv hnext
    obtain ⟨fault, hstep⟩ := (offends_iff_step_error hget hstack).mp hoffends
    rw [run_cons_error hstep] at hlast
    cases hlast
  · exact exists_run_take

theorem run_of_step_error {tokens : List Token} {i : Nat} {token : Token} {stack : Stack}
    {fault : Fault} (hget : tokens[i]? = some token) (hrun : run (tokens.take i) [] = .ok stack)
    (hstep : step token stack = .error fault) : run tokens [] = .error ⟨fault, token.start⟩ := by
  have hsplit : tokens = tokens.take i ++ token :: tokens.drop (i + 1) := by
    obtain ⟨hbound, rfl⟩ := List.getElem?_eq_some_iff.mp hget
    rw [← List.drop_eq_getElem_cons hbound, List.take_append_drop]
  rw [hsplit, run_append_ok hrun, run_cons_error hstep]

/-- Where fewer than two values wait, the count tells how far the run has come. -/
theorem depth_of_lt_two {tokens : List Token} {i : Nat} {stack : Stack}
    (hi : i < tokens.length) (hrun : run (tokens.take i) [] = .ok stack)
    (h : stack.length < 2) : stack.length = if i = 0 then 0 else 1 := by
  have hempty := eq_nil_iff_of_run hrun
  split
  · next hzero =>
      subst hzero
      rw [hempty.mpr List.take_zero]
      rfl
  · next hpos =>
      have htake : tokens.take i ≠ [] := by
        rw [Ne, List.take_eq_nil_iff]
        rintro (hi' | rfl)
        · exact hpos hi'
        · simp at hi
      have hstack : stack ≠ [] := fun hnil => htake (hempty.mp hnil)
      have hlength : 0 < stack.length := List.length_pos_iff.mpr hstack
      omega

/-! ### Blame -/

/-- What is told of the token at index `i` when it cannot act: that it is unknown,
else how many values it found, else what it was to divide by zero. -/
structure Blames (tokens : List Token) (i : Nat) (token : Token) (fault : Fault) : Prop where
  lexeme : fault.token = some token.lexeme
  unknown : token.meaning = .unknown →
    fault = refuse token.lexeme ∧ fault.kind = .unknownOperator
  short : ∀ op, token.meaning = .operator op → depth tokens i < 2 →
    ∃ found : Nat, fault = .insufficientOperands token.lexeme found ∧
      found = depth tokens i ∧ found = if i = 0 then 0 else 1
  zero : ∀ op, token.meaning = .operator op → 2 ≤ depth tokens i →
    ∃ dividend rest, fault = .divisionByZero token.lexeme dividend ∧
      run (tokens.take i) [] = .ok (0 :: dividend :: rest)

theorem blames_of_step_error {tokens : List Token} {i : Nat} {token : Token} {stack : Stack}
    {fault : Fault} (hi : i < tokens.length) (hrun : run (tokens.take i) [] = .ok stack)
    (hstep : step token stack = .error fault) : Blames tokens i token fault := by
  have hdepth := depth_eq_length hrun
  rcases step_error_inv hstep with
    ⟨hm, rfl⟩ | ⟨op, hm, hshort, rfl⟩ | ⟨op, left, rest, hm, -, rfl, rfl⟩
  · refine ⟨token_refuse _, fun _ => ⟨rfl, kind_refuse _⟩, ?_, ?_⟩
    · intro op hop
      exact absurd (hm.symm.trans hop) nofun
    · intro op hop
      exact absurd (hm.symm.trans hop) nofun
  · refine ⟨rfl, fun hunknown => absurd (hm.symm.trans hunknown) nofun, ?_, ?_⟩
    · intro _ _ _
      exact ⟨stack.length, rfl, hdepth.symm, depth_of_lt_two hi hrun hshort⟩
    · intro _ _ hdeep
      omega
  · refine ⟨rfl, fun hunknown => absurd (hm.symm.trans hunknown) nofun, ?_, ?_⟩
    · intro _ _ hshallow
      rw [hdepth, List.length_cons, List.length_cons] at hshallow
      omega
    · intro _ _ _
      exact ⟨left, rest, rfl, hrun⟩

theorem exists_first_offence {tokens : List Token} (h : ∃ i, Offends tokens i) :
    ∃ i, Offends tokens i ∧ ∀ j < i, ¬ Offends tokens j := by
  classical
  exact ⟨Nat.find h, Nat.find_spec h, fun _ => Nat.find_min h⟩

end Machine

open Machine

theorem evaluateTokens_of_first_offence {tokens : List Token} {i : Nat}
    (hoffends : Offends tokens i) (hfirst : ∀ j < i, ¬ Offends tokens j) (expression : Text) :
    ∃ (token : Token) (fault : Fault), tokens[i]? = some token ∧ Blames tokens i token fault ∧
      evaluateTokens tokens expression = .error (Stop.noValue expression ⟨fault, token.start⟩) := by
  obtain ⟨token, hget, -⟩ := id hoffends
  obtain ⟨stack, hrun⟩ := exists_run_take hfirst
  obtain ⟨fault, hstep⟩ := (offends_iff_step_error hget hrun).mp hoffends
  have hbound : i < tokens.length := (List.getElem?_eq_some_iff.mp hget).1
  have hstop := run_of_step_error hget hrun hstep
  exact ⟨token, fault, hget, blames_of_step_error hbound hrun hstep,
    evaluateTokens_of_run_error hstop expression⟩

/-- **The leftmost offence decides.** If a token offends, the first one that does
is blamed, by its own lexeme and at its own position: for being unknown, else for
finding fewer than two values (none at the very start, one later on), else for
dividing by zero. Only a dividend of more than 4300 digits cannot be told, and then
that is reported and nothing else. If no token offends, all are consumed, and the
number of values left decides: one is the value of the expression, any other number is
told, and it is none only where there are no tokens. -/
theorem evaluateTokens_leftmost_offence (tokens : List Token) (expression : Text) :
    ((∃ i, Offends tokens i) →
      ∃ (i : Nat) (token : Token) (fault : Fault), Offends tokens i ∧
        (∀ j < i, ¬ Offends tokens j) ∧ tokens[i]? = some token ∧ Blames tokens i token fault ∧
        ((∀ lexeme dividend, fault = .divisionByZero lexeme dividend →
            dividend.natAbs < Literal.tooLong Literal.digitLimit) →
          evaluateTokens tokens expression =
            .error (.failed ⟨fault.diagnostic, ⟨expression, token.start⟩⟩)) ∧
        ∀ lexeme dividend, fault = .divisionByZero lexeme dividend →
          Literal.tooLong Literal.digitLimit ≤ dividend.natAbs →
          evaluateTokens tokens expression = .error (.untold .integer)) ∧
    ((∀ i, ¬ Offends tokens i) →
      (depth tokens tokens.length = 1 → ∃ value, evaluateTokens tokens expression = .ok value) ∧
      (depth tokens tokens.length ≠ 1 →
        ∃ found : Nat, found = depth tokens tokens.length ∧ (found = 0 ↔ tokens = []) ∧
          evaluateTokens tokens expression =
            .error (.failed
              ⟨(Fault.malformed found).diagnostic, ⟨expression, expression.length⟩⟩))) := by
  refine ⟨?_, ?_⟩
  · intro hexists
    obtain ⟨i, hoffends, hfirst⟩ := exists_first_offence hexists
    obtain ⟨token, fault, hget, hblames, herror⟩ :=
      evaluateTokens_of_first_offence hoffends hfirst expression
    refine ⟨i, token, fault, hoffends, hfirst, hget, hblames, ?_, ?_⟩
    · intro htellable
      rw [herror, @Stop.noValue_of_isTellable ⟨fault, token.start⟩ htellable]
    · intro lexeme dividend hfault hlong
      have huntellable : ¬ fault.IsTellable := fun htellable =>
        absurd (htellable lexeme dividend hfault) (Nat.not_lt.mpr hlong)
      rw [herror, @Stop.noValue_of_not_isTellable ⟨fault, token.start⟩ huntellable]
  · intro hnone
    obtain ⟨stack, hrun⟩ := exists_run_take (i := tokens.length) fun j _ => hnone j
    have hdepth := depth_eq_length hrun
    rw [List.take_length] at hrun
    refine ⟨?_, ?_⟩
    · intro hone
      have hlength : stack.length = 1 := by omega
      obtain ⟨value, rfl⟩ := List.length_eq_one_iff.mp hlength
      exact ⟨value, evaluateTokens_eq_ok_iff.mpr hrun⟩
    · intro hother
      have hlength : stack.length ≠ 1 := by omega
      refine ⟨stack.length, hdepth.symm, ?_, evaluateTokens_of_run_ok hrun hlength expression⟩
      rw [List.length_eq_zero_iff]
      exact eq_nil_iff_of_run hrun

/-- In `5 0 /` the third token is to blame, and in `5 2 /` none is. -/
theorem blame_of_five_over_zero_and_two :
    (∃ fault : Fault, fault.token = some ['/'] ∧
      evaluateTokens [⟨['5'], 0, .operand 5⟩, ⟨['0'], 2, .operand 0⟩,
        ⟨['/'], 4, .operator .div⟩] [] = .error (.failed ⟨fault.diagnostic, ⟨[], 4⟩⟩)) ∧
    ∃ value, evaluateTokens [⟨['5'], 0, .operand 5⟩, ⟨['2'], 2, .operand 2⟩,
        ⟨['/'], 4, .operator .div⟩] [] = .ok value := by
  constructor
  · have hoffends : Offends [⟨['5'], 0, .operand 5⟩, ⟨['0'], 2, .operand 0⟩,
        ⟨['/'], 4, .operator .div⟩] 2 :=
      ⟨_, rfl, Or.inr ⟨.div, rfl, Or.inr ⟨rfl, [5], rfl⟩⟩⟩
    obtain ⟨i, token, fault, hblamed, hfirst, hget, hblames, hfailed, -⟩ :=
      (evaluateTokens_leftmost_offence _ []).1 ⟨2, hoffends⟩
    match i with
    | 0 => exact absurd hblamed (not_offends_of_operand rfl rfl)
    | 1 => exact absurd hblamed (not_offends_of_operand rfl rfl)
    | 2 =>
        cases hget
        refine ⟨fault, hblames.lexeme, hfailed ?_⟩
        obtain ⟨dividend, rest, hfault, hrun⟩ := hblames.zero .div rfl (by decide)
        obtain rfl : 5 = dividend := (List.cons.inj (List.cons.inj (Except.ok.inj hrun)).2).1
        rw [hfault]
        rintro _ _ ⟨⟩
        exact Literal.natAbs_lt_of_inRange (by decide)
    | _ + 3 => exact absurd hoffends (hfirst 2 (by omega))
  · refine ((evaluateTokens_leftmost_offence _ []).2 fun i => ?_).1 rfl
    match i with
    | 0 => exact not_offends_of_operand rfl rfl
    | 1 => exact not_offends_of_operand rfl rfl
    | 2 =>
        intro h
        obtain ⟨token, hget, hoffends⟩ := h
        cases hget
        rcases hoffends with hm | ⟨op, hm, hshort | ⟨-, rest, hzero⟩⟩
        · cases hm
        · exact absurd hshort (by decide)
        · cases hzero
    | _ + 3 =>
        intro h
        obtain ⟨token, hget, -⟩ := h
        cases hget

/-- A dividend over zero. -/
def overZero (dividend : Int) : List Token :=
  [⟨['x'], 0, .operand dividend⟩, ⟨['0'], 0, .operand 0⟩, ⟨['/'], 0, .operator .div⟩]

theorem offends_overZero (dividend : Int) :
    Offends (overZero dividend) 2 ∧ ∀ j < 2, ¬ Offends (overZero dividend) j := by
  refine ⟨⟨_, rfl, Or.inr ⟨.div, rfl, Or.inr ⟨rfl, [dividend], rfl⟩⟩⟩, ?_⟩
  intro j hj
  match j, hj with
  | 0, _ => exact not_offends_of_operand rfl rfl
  | 1, _ => exact not_offends_of_operand rfl rfl

theorem run_overZero (dividend : Int) :
    run (overZero dividend) [] = .error ⟨.divisionByZero ['/'] dividend, 0⟩ := rfl

theorem evaluateTokens_overZero_of_le {dividend : Int}
    (h : Literal.tooLong Literal.digitLimit ≤ dividend.natAbs) (expression : Text) :
    evaluateTokens (overZero dividend) expression = .error (.untold .integer) := by
  have hlong : ¬ (Fault.divisionByZero ['/'] dividend).IsTellable := fun htellable =>
    absurd (htellable _ _ rfl) (Nat.not_lt.mpr h)
  rw [evaluateTokens_of_run_error (run_overZero dividend),
    @Stop.noValue_of_not_isTellable ⟨_, 0⟩ hlong]

/-- Not every offence is told as a failure: `1` and 4300 zeros over zero is not. -/
theorem exists_offence_untold :
    let tokens := overZero (Literal.tooLong Literal.digitLimit)
    Offends tokens 2 ∧ (∀ j < 2, ¬ Offends tokens j) ∧
      evaluateTokens tokens [] = .error (.untold .integer) ∧
      ∀ error, evaluateTokens tokens [] ≠ .error (.failed error) := by
  intro tokens
  obtain ⟨hoffends, hfirst⟩ := offends_overZero (Literal.tooLong Literal.digitLimit)
  have huntold : evaluateTokens tokens [] = .error (.untold .integer) :=
    evaluateTokens_overZero_of_le (Nat.le_of_eq (Int.natAbs_natCast _).symm) []
  refine ⟨hoffends, hfirst, huntold, ?_⟩
  intro error herror
  rw [huntold] at herror
  cases herror

end ReversePolish
