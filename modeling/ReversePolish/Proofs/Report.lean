import Mathlib.Data.List.Chain
import ReversePolish.Proofs.Message

/-!
# ReversePolish.Proofs.Report

**Reports can be told apart**, whatever stands in the expressions.

A report holds its expression as it was written. Behind it stands an equals sign with the
value, or a bracket with the kind and the detail of the failure. The expression may hold such
marks itself, but what follows the last mark of a report does not: a value has no equals sign,
and no detail has an opening bracket behind a space (`unmarked_detail_of_evaluate`). So every
report can be taken apart at its last mark (`append_mark_inj`).

A detail may quote a lexeme, and a lexeme may be full of brackets. It holds no white space,
though, and neither quoting nor cutting puts a space into it.

Design points:

* Details are put together from parts, and a part often follows a space. So a part must not
  start with a mark either, and then its parts say all about the whole (`Unmarked.append`).
-/

namespace ReversePolish

open Text

/-! ### Marks behind a space -/

/-- Whether `mark` neither starts a text nor stands right behind a space in it. -/
def Unmarked (mark : Char) (text : Text) : Prop :=
  (' ' :: text).IsChain fun c d => c = ' ' → d ≠ mark

namespace Unmarked

variable {mark : Char} {text : Text}

theorem of_not_mem (h : mark ∉ text) : Unmarked mark text := by
  rw [Unmarked, List.isChain_cons]
  constructor
  · rintro d hd - rfl
    exact h (List.mem_of_head? hd)
  · refine (List.pairwise_of_forall_mem_list fun c _ d hd _ => ?_).isChain
    rintro rfl
    exact h hd

theorem of_space_not_mem (hspace : ' ' ∉ text) (hhead : mark ∉ text.head?) :
    Unmarked mark text := by
  rw [Unmarked, List.isChain_cons]
  constructor
  · rintro d hd - rfl
    exact hhead hd
  · refine (List.pairwise_of_forall_mem_list fun c hc d _ hcspace => ?_).isChain
    exact absurd (hcspace ▸ hc) hspace

theorem append {first second : Text} (hfirst : Unmarked mark first)
    (hsecond : Unmarked mark second) : Unmarked mark (first ++ second) := by
  obtain ⟨hhead, htail⟩ := List.isChain_cons.mp hsecond
  exact List.IsChain.append hfirst htail fun c _ d hd _ => hhead d hd rfl

/-- No mark stands anywhere behind a space. -/
theorem ne_append (h : Unmarked mark text) (before after : Text) :
    ' ' :: text ≠ before ++ ' ' :: mark :: after := by
  intro heq
  rw [Unmarked, heq, List.isChain_append_cons_cons] at h
  exact h.2.1 rfl rfl

/-- The last mark behind a space is found again. -/
theorem eq_nil_of_append {after after' gap : Text} (h : Unmarked mark after)
    (heq : ' ' :: mark :: after = gap ++ ' ' :: mark :: after') : gap = [] := by
  cases gap with
  | nil => rfl
  | cons c gap =>
      rw [List.cons_append, List.cons.injEq] at heq
      -- With a gap, the other mark would stand behind this one.
      cases gap with
      | nil =>
          obtain ⟨hmark, hafter⟩ := List.cons.inj heq.2
          exact absurd (by rw [hafter, hmark]; rfl) (h.ne_append [] after')
      | cons d gap =>
          obtain ⟨-, hafter⟩ := List.cons.inj heq.2
          exact absurd (by rw [hafter]; rfl) (h.ne_append (' ' :: gap) after')

end Unmarked

/-- A text is taken apart at its last mark behind a space. -/
theorem append_mark_inj {mark : Char} {before before' after after' : Text}
    (h : before ++ ' ' :: mark :: after = before' ++ ' ' :: mark :: after')
    (hafter : Unmarked mark after) (hafter' : Unmarked mark after') :
    before = before' ∧ after = after' := by
  obtain rfl : before = before' := by
    rcases List.append_eq_append_iff.mp h with ⟨gap, rfl, hgap⟩ | ⟨gap, rfl, hgap⟩
    · rw [hafter.eq_nil_of_append hgap, List.append_nil]
    · rw [hafter'.eq_nil_of_append hgap, List.append_nil]
  have hrest := List.append_cancel_left h
  exact ⟨rfl, (List.cons.inj (List.cons.inj hrest).2).2⟩

/-! ### Values -/

theorem not_mem_natural {c : Char} (h : c.isDigit = false) (n : Nat) : c ∉ natural n := by
  intro hc
  rw [isDigit_of_mem_natural hc] at h
  cases h

theorem not_mem_decimal {c : Char} (h : c.isDigit = false) (hminus : c ≠ '-') (value : Int) :
    c ∉ decimal value := by
  unfold decimal
  split
  · exact List.not_mem_cons_of_ne_of_not_mem hminus (not_mem_natural h _)
  · exact not_mem_natural h _

theorem decimal_injective {value value' : Int} (h : decimal value = decimal value') :
    value = value' := by
  rw [← Numeral.text_ofInt, ← Numeral.text_ofInt] at h
  rw [← Numeral.value_ofInt value, Numeral.text_injective h, Numeral.value_ofInt]

theorem report_success (expression : Text) (value : Int) :
    (Outcome.success value).report expression =
      "Result: ".toList ++ (expression ++ ' ' :: '=' :: ' ' :: decimal value) := by
  have hmark : " = ".toList = [' ', '=', ' '] := by decide
  calc (Outcome.success value).report expression
      = "Result: ".toList ++ expression ++ " = ".toList ++ decimal value := rfl
    _ = "Result: ".toList ++ (expression ++ (" = ".toList ++ decimal value)) := by
        rw [List.append_assoc, List.append_assoc]
    _ = "Result: ".toList ++ (expression ++ ' ' :: '=' :: ' ' :: decimal value) := by
        rw [hmark]
        rfl

theorem unmarked_decimal (value : Int) : Unmarked '=' (' ' :: decimal value) := by
  have hdecimal : '=' ∉ decimal value := not_mem_decimal (by decide) (by decide) value
  exact .of_not_mem (List.not_mem_cons_of_ne_of_not_mem (by decide) hdecimal)

theorem report_success_injective {expression expression' : Text} {value value' : Int}
    (h : (Outcome.success value).report expression = (Outcome.success value').report expression') :
    expression = expression' ∧ value = value' := by
  rw [report_success, report_success] at h
  obtain ⟨hexpression, hvalue⟩ :=
    append_mark_inj (List.append_cancel_left h) (unmarked_decimal value) (unmarked_decimal value')
  exact ⟨hexpression, decimal_injective (List.cons.inj hvalue).2⟩

/-! ### Diagnostics -/

/-- What a report says of a failure, behind the expression. -/
def Diagnostic.account (diagnostic : Diagnostic) : Text :=
  diagnostic.kind.name ++ ": ".toList ++ diagnostic.detail ++ [')']

theorem report_failure (expression : Text) (reason : Failure) :
    (Outcome.failure reason).report expression =
      "Evaluation failed for expression: ".toList ++
        (expression ++ ' ' :: '(' :: reason.diagnostic.account) := by
  have hmark : " (".toList = [' ', '('] := by decide
  let opening := "Evaluation failed for expression: ".toList
  let diagnostic := reason.diagnostic
  calc (Outcome.failure reason).report expression
      = opening ++ expression ++ " (".toList ++ diagnostic.kind.name ++ ": ".toList ++
          diagnostic.detail ++ [')'] := rfl
    _ = opening ++ (expression ++ (" (".toList ++ diagnostic.account)) := by
        rw [Diagnostic.account]
        simp only [List.append_assoc]
    _ = opening ++ (expression ++ ' ' :: '(' :: diagnostic.account) := by
        rw [hmark]
        rfl

theorem FaultKind.name_append_inj {kind kind' : FaultKind} {rest rest' : Text}
    (h : kind.name ++ rest = kind'.name ++ rest') : kind = kind' ∧ rest = rest' := by
  have hinitial : kind.name.head? = kind'.name.head? := by
    have hname (kind : FaultKind) : kind.name ≠ [] := by cases kind <;> decide
    rw [← List.head?_append_of_ne_nil _ (hname kind), h,
      List.head?_append_of_ne_nil _ (hname kind')]
  -- No two names start with the same letter.
  obtain rfl : kind = kind' := by
    cases kind <;> cases kind' <;> first | rfl | exact absurd hinitial (by decide)
  exact ⟨rfl, List.append_cancel_left h⟩

theorem Diagnostic.account_injective {diagnostic diagnostic' : Diagnostic}
    (h : diagnostic.account = diagnostic'.account) :
    diagnostic.kind = diagnostic'.kind ∧ diagnostic.detail = diagnostic'.detail := by
  have hopen := List.append_cancel_right h
  rw [List.append_assoc, List.append_assoc] at hopen
  obtain ⟨hkind, hdetail⟩ := FaultKind.name_append_inj hopen
  exact ⟨hkind, List.append_cancel_left hdetail⟩

theorem Diagnostic.unmarked_account {diagnostic : Diagnostic}
    (h : Unmarked '(' diagnostic.detail) : Unmarked '(' diagnostic.account := by
  have hname : '(' ∉ diagnostic.kind.name := by cases diagnostic.kind <;> decide
  have hcolon : '(' ∉ ": ".toList := by decide
  have hclose : '(' ∉ [')'] := by decide
  exact (((Unmarked.of_not_mem hname).append (.of_not_mem hcolon)).append h).append
    (.of_not_mem hclose)

/-- An abbreviated lexeme starts with the mark around it, which is no bracket. -/
theorem unmarked_abbreviate {lexeme : Text} (h : Unbroken lexeme) :
    Unmarked '(' (abbreviate lexeme) := by
  have hspace : ' ' ∉ lexeme := fun hmem => absurd (h ' ' hmem) (by decide)
  refine .of_space_not_mem (space_not_mem_abbreviate hspace) ?_
  obtain ⟨shown, hhead⟩ := head?_abbreviate lexeme
  rw [hhead]
  unfold markFor
  split <;> decide

theorem Fault.OfToken.unmarked_detail {fault : Fault} (h : fault.OfToken)
    (hlexeme : ∀ lexeme ∈ fault.token, Unbroken lexeme) : Unmarked '(' fault.detail := by
  cases h with
  | @insufficientOperands op found hfound =>
      have hopening : '(' ∉ "Not enough operands for ".toList := by decide +kernel
      have hquote : '(' ∉ quote [op.symbol] := by cases op <;> decide +kernel
      have hcount : '(' ∉ ": expected 2, found ".toList := by decide +kernel
      have hfound : '(' ∉ natural found := not_mem_natural (by decide) found
      exact (((Unmarked.of_not_mem hopening).append (.of_not_mem hquote)).append
        (.of_not_mem hcount)).append (.of_not_mem hfound)
  | @divisionByZero op dividend hdividend =>
      have hopening : '(' ∉ "Can't divide by zero: ".toList := by decide +kernel
      have hvalue : '(' ∉ decimal dividend := not_mem_decimal (by decide) (by decide) dividend
      have hspace : '(' ∉ [' '] := by decide
      have hsymbol : '(' ∉ [op.symbol] := by cases op <;> decide
      have hzero : '(' ∉ " 0".toList := by decide
      exact ((((Unmarked.of_not_mem hopening).append (.of_not_mem hvalue)).append
        (.of_not_mem hspace)).append (.of_not_mem hsymbol)).append (.of_not_mem hzero)
  | outOfRange lexeme =>
      have hopening : '(' ∉ "Integer ".toList := by decide
      have hrange : '(' ∉ " is outside [-2147483648, 2147483647]".toList := by decide +kernel
      rw [detail_outOfRange]
      exact ((Unmarked.of_not_mem hopening).append
        (unmarked_abbreviate (hlexeme lexeme rfl))).append (.of_not_mem hrange)
  | unknownOperator lexeme =>
      have hopening : '(' ∉ "Unknown operator ".toList := by decide +kernel
      exact (Unmarked.of_not_mem hopening).append (unmarked_abbreviate (hlexeme lexeme rfl))

theorem unmarked_detail_malformed (found : Nat) : Unmarked '(' (Fault.malformed found).detail := by
  have hopening : '(' ∉ "Incorrect final stack size: expected 1 value, found ".toList := by
    decide +kernel
  exact (Unmarked.of_not_mem hopening).append
    (.of_not_mem (not_mem_natural (by decide) found))

/-! ### Reports of expressions -/

section

variable {expression expression' : Text} {skipEmpty skipEmpty' : Bool}

theorem unbroken_of_mem_tokenize {tokens : List Token} {token : Token}
    (h : tokenize expression skipEmpty = .ok tokens) (hmem : token ∈ tokens) :
    Unbroken token.lexeme := by
  have hlexeme : token.lexeme ∈ kept skipEmpty (lexemes expression) := by
    rw [← map_lexeme_of_tokenize h]
    exact List.mem_map_of_mem hmem
  exact unbroken_of_mem_lexemes (mem_of_mem_kept hlexeme)

/-- No detail of a failure holds an opening bracket behind a space. -/
theorem unmarked_detail_of_evaluate {reason : Failure}
    (h : evaluate expression skipEmpty = .ok (.failure reason)) :
    Unmarked '(' reason.diagnostic.detail := by
  obtain ⟨tokens, htokens, hcause⟩ := run_of_evaluate_failure h
  rcases hcause with ⟨stop, hrun, rfl⟩ | ⟨stack, -, rfl⟩
  · refine (ofToken_of_run_error htokens hrun).unmarked_detail fun lexeme hlexeme => ?_
    obtain ⟨before, token, after, stack, rfl, -, hstep, -⟩ := Machine.run_error_inv hrun
    obtain rfl : token.lexeme = lexeme :=
      Option.some.inj ((Machine.token_of_step_error hstep).symm.trans hlexeme)
    exact unbroken_of_mem_tokenize htokens (by simp)
  · exact unmarked_detail_malformed stack.length

theorem report_failure_injective {reason reason' : Failure}
    (h : evaluate expression skipEmpty = .ok (.failure reason))
    (h' : evaluate expression' skipEmpty' = .ok (.failure reason'))
    (hreport : (Outcome.failure reason).report expression =
      (Outcome.failure reason').report expression') :
    expression = expression' ∧ reason.diagnostic.kind = reason'.diagnostic.kind ∧
      reason.diagnostic.detail = reason'.diagnostic.detail := by
  rw [report_failure, report_failure] at hreport
  obtain ⟨hexpression, haccount⟩ := append_mark_inj (List.append_cancel_left hreport)
    (Diagnostic.unmarked_account (unmarked_detail_of_evaluate h))
    (Diagnostic.unmarked_account (unmarked_detail_of_evaluate h'))
  exact ⟨hexpression, Diagnostic.account_injective haccount⟩

theorem report_success_ne_failure (value : Int) (reason : Failure) :
    (Outcome.success value).report expression ≠ (Outcome.failure reason).report expression' := by
  intro h
  have hinitial : some 'R' = some 'E' := congrArg List.head? h
  exact absurd hinitial (by decide)

/-- **Reports can be told apart.** If the reports of two expressions are the same line, the
expressions are the same, and both have the same value or both fail with the same kind and the
same detail. Whatever stands in an expression, its report does not read as another's, and
neither does it when empty lexemes are kept for one expression and left out for the other. -/
theorem report_injective {outcome outcome' : Outcome}
    (h : evaluate expression skipEmpty = .ok outcome)
    (h' : evaluate expression' skipEmpty' = .ok outcome')
    (hreport : outcome.report expression = outcome'.report expression') :
    expression = expression' ∧
      ((∃ value, outcome = .success value ∧ outcome' = .success value) ∨
        ∃ reason reason', outcome = .failure reason ∧ outcome' = .failure reason' ∧
          reason.diagnostic.kind = reason'.diagnostic.kind ∧
          reason.diagnostic.detail = reason'.diagnostic.detail) := by
  cases outcome with
  | success value =>
      cases outcome' with
      | success value' =>
          obtain ⟨hexpression, rfl⟩ := report_success_injective hreport
          exact ⟨hexpression, Or.inl ⟨value, rfl, rfl⟩⟩
      | failure reason' => exact absurd hreport (report_success_ne_failure value reason')
  | failure reason =>
      cases outcome' with
      | success value' => exact absurd hreport.symm (report_success_ne_failure value' reason)
      | failure reason' =>
          obtain ⟨hexpression, hkind, hdetail⟩ := report_failure_injective h h' hreport
          exact ⟨hexpression, Or.inr ⟨reason, reason', rfl, rfl, hkind, hdetail⟩⟩

/-- An expression that holds the end of a report, and an empty lexeme that is never reached. -/
theorem report_injective_of_bracketed :
    let expression : Text := "x (UNKNOWN_OPERATOR: y)  ".toList
    ∃ outcome outcome', evaluate expression false = .ok outcome ∧
      evaluate expression true = .ok outcome' ∧
      outcome.report expression = outcome'.report expression ∧
      ∃ reason reason', outcome = .failure reason ∧ outcome' = .failure reason' ∧
        reason.diagnostic.detail = reason'.diagnostic.detail := by
  intro expression
  let reason : Failure :=
    ⟨(Fault.unknownOperator ['x']).diagnostic, some ⟨expression, 0⟩⟩
  have hstrict : evaluate expression false = .ok (.failure reason) := by decide +kernel
  have hlenient : evaluate expression true = .ok (.failure reason) := by decide +kernel
  refine ⟨_, _, hstrict, hlenient, rfl, ?_⟩
  rcases (report_injective hstrict hlenient rfl).2 with
    ⟨value, hvalue, -⟩ | ⟨first, second, hfirst, hsecond, -, hdetail⟩
  · cases hvalue
  · exact ⟨first, second, hfirst, hsecond, hdetail⟩

end

end ReversePolish
