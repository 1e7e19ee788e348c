import ReversePolish.Proofs.Overlong
import ReversePolish.Proofs.Position

/-!
# ReversePolish.Proofs.EmptyLexeme

What **leaving out empty lexemes** changes.

White space beside white space, or at an end of an expression, leaves an empty lexeme. It
is no literal and no operator, so it is refused like any other unknown lexeme, unless
empty lexemes are left out. Up to the first of them the tokens are the same either way.
So either a token before it is refused, and that is the failure both times, or the first
empty lexeme is the failure where it is kept (`evaluate_skipEmpty`).

Design points:

* The two rows of tokens are compared as far as the first empty lexeme and no further
  (`FirstEmpty.exists_tokens`). What becomes of the rest when it is left out can be anything.
* Whether a token is refused is asked of the tokens (`Machine.Offends`), and the machine is
  brought in by what it consumes (`exists_run_take_iff`).
-/

namespace ReversePolish

open Text

/-- The first empty lexeme of an expression with white space: it starts at `index`, and
`before` are the pieces on its left. -/
structure FirstEmpty (expression : Text) (before : List Piece) (index : Nat) : Prop where
  hasBlank : expression.hasBlank = true
  split : ∃ after, spacedPieces expression = before ++ ⟨[], index⟩ :: after
  ne_nil : ∀ piece ∈ before, piece.text ≠ []

variable {expression : Text} {before : List Piece} {index : Nat}

/-! ### The pieces that are kept -/

theorem exists_firstEmpty (hblank : expression.hasBlank = true)
    (h : ∃ piece ∈ spacedPieces expression, piece.text = []) :
    ∃ before index, FirstEmpty expression before index := by
  obtain ⟨piece, hpiece, hempty⟩ := h
  have hfind : ((spacedPieces expression).find? fun piece => piece.text.isEmpty).isSome = true :=
    List.find?_isSome.mpr ⟨piece, hpiece, by simp [hempty]⟩
  obtain ⟨⟨text, index⟩, hfound⟩ := Option.isSome_iff_exists.mp hfind
  obtain ⟨htext, before, after, hpieces, hbefore⟩ := List.find?_eq_some_iff_append.mp hfound
  obtain rfl : text = [] := List.isEmpty_iff.mp htext
  refine ⟨before, index, hblank, ⟨after, hpieces⟩, ?_⟩
  intro piece hmem hnil
  simpa [hnil] using hbefore piece hmem

theorem FirstEmpty.exists_keptPieces (h : FirstEmpty expression before index) :
    ∃ after after', keptPieces expression false = before ++ [⟨[], index⟩] ++ after ∧
      keptPieces expression true = before ++ after' := by
  obtain ⟨after, hsplit⟩ := h.split
  have hpieces : pieces expression = before ++ ⟨[], index⟩ :: after :=
    (pieces_of_hasBlank h.hasBlank).trans hsplit
  refine ⟨after, after.filter fun piece => !piece.text.isEmpty, ?_, ?_⟩
  · rw [List.append_assoc]
    exact hpieces
  · have hkept : keptPieces expression true =
        (pieces expression).filter fun piece => !piece.text.isEmpty := rfl
    rw [hkept, hpieces, List.filter_append, filter_eq_self_of_ne_nil h.ne_nil]
    rfl

theorem keptPieces_eq_pieces (h : expression.hasBlank = false ∨
    ∀ piece ∈ spacedPieces expression, piece.text ≠ []) (skipEmpty : Bool) :
    keptPieces expression skipEmpty = pieces expression := by
  refine keptPieces_of_ne_nil ?_ skipEmpty
  cases hblank : expression.hasBlank with
  | true =>
      rw [pieces_of_hasBlank hblank]
      exact h.resolve_left (by simp [hblank])
  | false =>
      rw [pieces_of_not_hasBlank hblank]
      intro piece hmem
      exact List.ne_nil_of_length_eq_add_one (length_text_of_mem_densePieces hmem)

/-! ### The tokens up to the first empty lexeme -/

variable {tokens tokens' : List Token}

/-- Before the first empty lexeme the tokens are the same, whether it is kept or left out. -/
theorem FirstEmpty.exists_tokens (h : FirstEmpty expression before index)
    (htokens : tokenize expression false = .ok tokens)
    (htokens' : tokenize expression true = .ok tokens') :
    ∃ first rest rest', tokens.take before.length = first ∧
      tokens = first ++ ⟨[], index, .unknown⟩ :: rest ∧ tokens' = first ++ rest' := by
  obtain ⟨after, after', hkept, hkept'⟩ := h.exists_keptPieces
  rw [tokenize, hkept] at htokens
  rw [tokenize, hkept'] at htokens'
  obtain ⟨front, rest, hfront, -, rfl⟩ := mapM_append_inv htokens
  obtain ⟨first, empty, hfirst, hempty, rfl⟩ := mapM_append_inv hfront
  obtain ⟨first', rest', hfirst', -, rfl⟩ := mapM_append_inv htokens'
  rw [hfirst] at hfirst'
  cases hfirst'
  cases hempty
  have hlength : before.length = first.length := (mapM_eq_ok_iff.mp hfirst).length_eq
  refine ⟨first, rest, rest', ?_, List.append_assoc first _ rest, rfl⟩
  rw [hlength, List.append_assoc, List.take_left]

/-- Where a token before the first empty lexeme is refused, that is the failure both times. -/
theorem FirstEmpty.evaluate_of_offends (h : FirstEmpty expression before index)
    (htokens : tokenize expression false = .ok tokens)
    (htokens' : tokenize expression true = .ok tokens')
    (hoffends : ∃ i < before.length, Machine.Offends tokens i) :
    ∃ reason, evaluate expression false = .ok (.failure reason) ∧
      evaluate expression true = .ok (.failure reason) := by
  obtain ⟨first, rest, rest', htake, rfl, rfl⟩ := h.exists_tokens htokens htokens'
  have hrun : ¬ ∃ stack, Machine.run first [] = .ok stack := by
    rw [← htake, Machine.exists_run_take_iff]
    obtain ⟨i, hi, hi'⟩ := hoffends
    exact fun hnone => hnone i hi hi'
  cases hstop : Machine.run first [] with
  | ok stack => exact absurd ⟨stack, hstop⟩ hrun
  | error stop =>
      exact ⟨_, evaluate_of_run_error htokens (Machine.run_append_error hstop _),
        evaluate_of_run_error htokens' (Machine.run_append_error hstop _)⟩

/-- Where none is refused, the first empty lexeme is the failure if it is kept. -/
theorem FirstEmpty.evaluate_of_not_offends (h : FirstEmpty expression before index)
    (htokens : tokenize expression false = .ok tokens)
    (htokens' : tokenize expression true = .ok tokens')
    (hnone : ∀ i < before.length, ¬ Machine.Offends tokens i) :
    evaluate expression false =
      .ok (.failure ⟨(Fault.unknownOperator []).diagnostic, some ⟨expression, index⟩⟩) := by
  obtain ⟨stack, hstack⟩ := Machine.exists_run_take hnone
  obtain ⟨first, rest, rest', htake, rfl, -⟩ := h.exists_tokens htokens htokens'
  rw [htake] at hstack
  have hstop : Machine.run (first ++ ⟨[], index, .unknown⟩ :: rest) [] =
      .error ⟨.unknownOperator [], index⟩ := by
    rw [Machine.run_append_ok hstack, Machine.run_cons_error (Machine.step_unknown rfl stack)]
    rfl
  exact evaluate_of_run_error htokens hstop

/-- Either way the outcome is a failure where the empty lexeme is kept. -/
theorem FirstEmpty.exists_failure (h : FirstEmpty expression before index)
    (htokens : tokenize expression false = .ok tokens)
    (htokens' : tokenize expression true = .ok tokens') :
    ∃ reason, evaluate expression false = .ok (.failure reason) := by
  by_cases hoffends : ∃ i < before.length, Machine.Offends tokens i
  · obtain ⟨reason, hreason, -⟩ := h.evaluate_of_offends htokens htokens' hoffends
    exact ⟨reason, hreason⟩
  · have hnone : ∀ i < before.length, ¬ Machine.Offends tokens i :=
      fun i hi hi' => hoffends ⟨i, hi, hi'⟩
    exact ⟨_, h.evaluate_of_not_offends htokens htokens' hnone⟩

/-! ### Outcomes -/

theorem evaluate_eq_of_full (h : expression.hasBlank = false ∨
    ∀ piece ∈ spacedPieces expression, piece.text ≠ []) :
    evaluate expression false = evaluate expression true := by
  simp only [evaluate, tokenize, keptPieces_eq_pieces h]

/-- An expression that has a value has no empty lexeme, so that nothing is left out. -/
theorem evaluate_skipEmpty_of_success {value : Int}
    (h : evaluate expression false = .ok (.success value)) :
    evaluate expression true = .ok (.success value) := by
  by_cases hfull : expression.hasBlank = false ∨ ∀ piece ∈ spacedPieces expression, piece.text ≠ []
  · rw [← evaluate_eq_of_full hfull, h]
  · simp only [not_or, Bool.not_eq_false, not_forall, not_not, exists_prop] at hfull
    obtain ⟨before, index, hfirst⟩ := exists_firstEmpty hfull.1 hfull.2
    have hreadable : ¬ HoldsOverlong expression := exists_outcome_iff.mp ⟨_, h⟩
    have hexists (skipEmpty : Bool) : ∃ tokens, tokenize expression skipEmpty = .ok tokens :=
      exists_tokens_iff_not_holdsOverlong.mpr hreadable
    obtain ⟨tokens, htokens⟩ := hexists false
    obtain ⟨tokens', htokens'⟩ := hexists true
    obtain ⟨reason, hreason⟩ := hfirst.exists_failure htokens htokens'
    rw [h] at hreason
    cases hreason

/-- **What leaving out empty lexemes changes.** An expression that has an outcome has one
whether empty lexemes are kept or left out. The two are the same, down to the place of a
failure, if there is no white space or no lexeme is empty. Otherwise there is a first empty
lexeme, and it decides: if a token before it is refused, both outcomes are that failure; if
none is, the outcome is a failure at the empty lexeme where that is kept. So a value
without leaving out is the value with it. -/
theorem evaluate_skipEmpty (h : ∃ skipEmpty outcome, evaluate expression skipEmpty = .ok outcome) :
    ∃ strict lenient, evaluate expression false = .ok strict ∧
      evaluate expression true = .ok lenient ∧
      (expression.hasBlank = false ∨ (∀ piece ∈ spacedPieces expression, piece.text ≠ []) →
        strict = lenient) ∧
      (expression.hasBlank = true → (∃ piece ∈ spacedPieces expression, piece.text = []) →
        ∃ before index, FirstEmpty expression before index) ∧
      (∀ before index tokens, FirstEmpty expression before index →
        tokenize expression false = .ok tokens →
        ((∃ i < before.length, Machine.Offends tokens i) →
          ∃ reason, strict = .failure reason ∧ lenient = .failure reason) ∧
        ((∀ i < before.length, ¬ Machine.Offends tokens i) →
          strict = .failure ⟨(Fault.unknownOperator []).diagnostic, some ⟨expression, index⟩⟩)) ∧
      ∀ value, strict = .success value → lenient = .success value := by
  have hreadable : ¬ HoldsOverlong expression := by
    obtain ⟨skipEmpty, houtcome⟩ := h
    exact exists_outcome_iff.mp houtcome
  have houtcome (skipEmpty : Bool) : ∃ outcome, evaluate expression skipEmpty = .ok outcome :=
    exists_outcome_iff.mpr hreadable
  obtain ⟨strict, hstrict⟩ := houtcome false
  obtain ⟨lenient, hlenient⟩ := houtcome true
  obtain ⟨tokens', htokens'⟩ : ∃ tokens', tokenize expression true = .ok tokens' :=
    exists_tokens_iff_not_holdsOverlong.mpr hreadable
  refine ⟨strict, lenient, hstrict, hlenient, ?_, exists_firstEmpty, ?_, ?_⟩
  · intro hfull
    have hequal := evaluate_eq_of_full hfull
    rw [hstrict, hlenient] at hequal
    exact Except.ok.inj hequal
  · intro before index tokens hfirst htokens
    constructor
    · intro hoffends
      obtain ⟨reason, hreason, hreason'⟩ := hfirst.evaluate_of_offends htokens htokens' hoffends
      exact ⟨reason, Except.ok.inj (hstrict.symm.trans hreason),
        Except.ok.inj (hlenient.symm.trans hreason')⟩
    · intro hnone
      have hreason := hfirst.evaluate_of_not_offends htokens htokens' hnone
      exact Except.ok.inj (hstrict.symm.trans hreason)
  · rintro value rfl
    have hvalue := evaluate_skipEmpty_of_success hstrict
    exact Except.ok.inj (hlenient.symm.trans hvalue)

/-- Between two summands an empty lexeme is the failure, and left out it leaves the sum;
behind an operator without operands it makes no difference. -/
theorem evaluate_around_empty_lexeme :
    let sum : Text := ['1', ' ', ' ', '2', ' ', '+']
    let short : Text := ['*', '\t', '\n', 'x']
    evaluate sum false =
        .ok (.failure ⟨(Fault.unknownOperator []).diagnostic, some ⟨sum, 2⟩⟩) ∧
      evaluate sum true = .ok (.success 3) ∧
      ∃ reason, evaluate short false = .ok (.failure reason) ∧
        evaluate short true = .ok (.failure reason) := by
  intro sum short
  have hsum : evaluate sum true = .ok (.success 3) := by decide
  refine ⟨?_, hsum, ?_⟩
  · obtain ⟨strict, lenient, hstrict, -, -, -, hgap, -⟩ := evaluate_skipEmpty ⟨true, _, hsum⟩
    have hfirst : FirstEmpty sum [⟨['1'], 0⟩] 2 :=
      ⟨rfl, ⟨[⟨['2'], 3⟩, ⟨['+'], 5⟩], by decide⟩, by simp⟩
    have htokens : tokenize sum false = .ok [⟨['1'], 0, .operand 1⟩, ⟨[], 2, .unknown⟩,
        ⟨['2'], 3, .operand 2⟩, ⟨['+'], 5, .operator .add⟩] := by
      decide
    rw [(hgap _ _ _ hfirst htokens).2 ?_] at hstrict
    · exact hstrict
    · intro i hi
      obtain rfl : i = 0 := Nat.lt_one_iff.mp hi
      exact Machine.not_offends_of_operand rfl rfl
  · have houtcome : ∃ outcome, evaluate short false = .ok outcome := ⟨_, rfl⟩
    obtain ⟨strict, lenient, hstrict, hlenient, -, -, hgap, -⟩ :=
      evaluate_skipEmpty ⟨false, houtcome⟩
    have hfirst : FirstEmpty short [⟨['*'], 0⟩] 2 := ⟨rfl, ⟨[⟨['x'], 3⟩], by decide⟩, by simp⟩
    have htokens : tokenize short false = .ok [⟨['*'], 0, .operator .mul⟩, ⟨[], 2, .unknown⟩,
        ⟨['x'], 3, .unknown⟩] := by
      decide
    have hoffends : Machine.Offends [⟨['*'], 0, .operator .mul⟩, ⟨[], 2, .unknown⟩,
        ⟨['x'], 3, .unknown⟩] 0 :=
      ⟨_, rfl, Or.inr ⟨.mul, rfl, Or.inl (by decide)⟩⟩
    obtain ⟨reason, rfl, rfl⟩ := (hgap _ _ _ hfirst htokens).1 ⟨0, by decide, hoffends⟩
    exact ⟨reason, hstrict, hlenient⟩

end ReversePolish
