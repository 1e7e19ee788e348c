import ReversePolish.Proofs.Decomposition
import ReversePolish.Proofs.Ending
import ReversePolish.Proofs.Position
import ReversePolish.Proofs.Quotation
import ReversePolish.Proofs.Range
import ReversePolish.Proofs.Recognition

/-!
# ReversePolish.Proofs.Message

What is told of a failure is **one line** of bounded length, whatever the expression.

A message is made of words of its own, of numbers, and of parts of the input. The parts of
the input that may be of any length or kind are quoted and abbreviated. The others are
lexemes of operators, which are single characters (`Fault.OfToken`). The numbers are words,
or they count values that wait. Each of these was written with a character at least, so
there are no more of them than characters in the expression (`length_le_length_of_tokenize`).

Design points:

* The faults that an expression can come to are told by what may stand in them. A token list
  put together by hand may have faults of any length.
* A length is the number of code points.
-/

namespace ReversePolish

open Text

/-! ### Faults of an expression -/

/-- The faults with which a token of an expression can stop the machine. -/
inductive Fault.OfToken : Fault → Prop
  | insufficientOperands (op : Operator) {found : Nat} :
      found < 2 → OfToken (.insufficientOperands [op.symbol] found)
  | divisionByZero (op : Operator) {dividend : Int} :
      Word.InRange dividend → OfToken (.divisionByZero [op.symbol] dividend)
  | outOfRange (lexeme : Text) : OfToken (.outOfRange lexeme)
  | unknownOperator (lexeme : Text) : OfToken (.unknownOperator lexeme)

namespace Machine

theorem ofToken_refuse (lexeme : Text) : (refuse lexeme).OfToken := by
  unfold refuse
  split
  · exact .outOfRange lexeme
  · exact .unknownOperator lexeme

theorem ofToken_of_step_error {token : Token} {stack : Stack} {fault : Fault}
    (htoken : Meaning.ofLexeme token.lexeme = .ok token.meaning) (hstack : HoldsWords stack)
    (h : step token stack = .error fault) : fault.OfToken := by
  rcases step_error_inv h with
    ⟨-, rfl⟩ | ⟨op, hmeaning, hshort, rfl⟩ | ⟨op, left, rest, hmeaning, -, rfl, rfl⟩
  · exact ofToken_refuse token.lexeme
  · rw [hmeaning] at htoken
    rw [eq_symbol_of_ofLexeme htoken]
    exact .insufficientOperands op hshort
  · rw [hmeaning] at htoken
    rw [eq_symbol_of_ofLexeme htoken]
    exact .divisionByZero op (hstack left (by simp))

end Machine

variable {expression : Text} {skipEmpty : Bool} {tokens : List Token}

theorem ofToken_of_run_error {stop : Machine.Stop}
    (htokens : tokenize expression skipEmpty = .ok tokens)
    (h : Machine.run tokens [] = .error stop) : stop.fault.OfToken := by
  have hoperands := hasWordOperands_of_tokenize htokens
  obtain ⟨before, token, after, stack, rfl, hbefore, hstep, -⟩ := Machine.run_error_inv h
  have hwords : HasWordOperands before := fun t ht => hoperands t (List.mem_append_left _ ht)
  have hstack : HoldsWords stack := Machine.holdsWords_of_run hwords holdsWords_nil hbefore
  exact Machine.ofToken_of_step_error (ofLexeme_of_mem_tokenize htokens (by simp)) hstack hstep

/-! ### Their messages -/

/-- Whether a text is printable throughout and takes at most `width` code points. -/
structure Fits (width : Nat) (text : Text) : Prop where
  printable : Printable text
  length_le : text.length ≤ width

namespace Fits

theorem append {m n : Nat} {first second : Text} (hfirst : Fits m first) (hsecond : Fits n second) :
    Fits (m + n) (first ++ second) where
  printable := hfirst.printable.append hsecond.printable
  length_le := List.length_append ▸ Nat.add_le_add hfirst.length_le hsecond.length_le

theorem mono {m n : Nat} {text : Text} (h : Fits m text) (hle : m ≤ n) : Fits n text :=
  ⟨h.printable, Nat.le_trans h.length_le hle⟩

theorem of_ascii {width : Nat} {text : Text}
    (h : (text.all fun c => 0x20 ≤ c.toNat && c.toNat ≤ 0x7e) = true ∧ text.length ≤ width) :
    Fits width text :=
  ⟨printable_of_ascii h.1, h.2⟩

end Fits

theorem fits_symbol (op : Operator) : Fits 1 [op.symbol] := by
  cases op <;> exact .of_ascii (by decide)

theorem fits_quote_symbol (op : Operator) : Fits 3 (quote [op.symbol]) where
  printable := printable_quote _
  length_le := by cases op <;> decide +kernel

theorem fits_abbreviate (text : Text) : Fits 40 (abbreviate text) :=
  ⟨printable_abbreviate text, length_abbreviate_le text⟩

theorem fits_natural {n width : Nat} (hwidth : 0 < width) (h : n < 10 ^ width) :
    Fits width (natural n) :=
  ⟨printable_natural n, (Nat.length_toDigits_le_iff (by decide) hwidth).mpr h⟩

theorem fits_decimal {value : Int} (h : Word.InRange value) : Fits 11 (decimal value) where
  printable := printable_decimal value
  length_le := by
    have hsign : (Numeral.ofInt value).sign.text.length ≤ 1 := by
      cases (Numeral.ofInt value).sign <;> decide
    have hdigits := Numeral.length_digits_ofInt_le h
    rw [← Numeral.text_ofInt, Numeral.text, List.length_append]
    unfold Literal.wordDigits at hdigits
    omega

/-- The longest message is that of a long literal. -/
theorem Fault.OfToken.fits_detail {fault : Fault} (h : fault.OfToken) : Fits 85 fault.detail := by
  cases h with
  | insufficientOperands op hfound =>
      have hopening : Fits 24 "Not enough operands for ".toList := .of_ascii (by decide +kernel)
      have hcount : Fits 20 ": expected 2, found ".toList := .of_ascii (by decide +kernel)
      have hfound := fits_natural Nat.one_pos (Nat.lt_trans hfound (by decide))
      exact (((hopening.append (fits_quote_symbol op)).append hcount).append
        hfound).mono (by decide)
  | divisionByZero op hdividend =>
      have hopening : Fits 22 "Can't divide by zero: ".toList := .of_ascii (by decide +kernel)
      have hspace : Fits 1 [' '] := .of_ascii (by decide)
      have hzero : Fits 2 " 0".toList := .of_ascii (by decide +kernel)
      exact ((((hopening.append (fits_decimal hdividend)).append hspace).append
        (fits_symbol op)).append hzero).mono (by decide)
  | outOfRange lexeme =>
      have hopening : Fits 8 "Integer ".toList := .of_ascii (by decide +kernel)
      have hrange : Fits 37 " is outside [-2147483648, 2147483647]".toList :=
        .of_ascii (by decide +kernel)
      rw [detail_outOfRange]
      exact (hopening.append (fits_abbreviate lexeme)).append hrange
  | unknownOperator lexeme =>
      have hopening : Fits 17 "Unknown operator ".toList := .of_ascii (by decide +kernel)
      exact (hopening.append (fits_abbreviate lexeme)).mono (by decide)

theorem printable_detail_malformed (found : Nat) : Printable (Fault.malformed found).detail := by
  have hopening : Printable "Incorrect final stack size: expected 1 value, found ".toList :=
    printable_of_ascii (by decide +kernel)
  exact hopening.append (printable_natural found)

theorem length_detail_malformed (found : Nat) :
    (Fault.malformed found).detail.length = 52 + (natural found).length := by
  have hopening : "Incorrect final stack size: expected 1 value, found ".toList.length = 52 := by
    decide +kernel
  calc (Fault.malformed found).detail.length
      = "Incorrect final stack size: expected 1 value, found ".toList.length +
          (natural found).length := List.length_append
    _ = 52 + (natural found).length := congrArg (· + _) hopening

/-! ### How many values can wait -/

/-- Whether no operand has an empty lexeme. -/
def HasWrittenOperands (tokens : List Token) : Prop :=
  ∀ token ∈ tokens, ∀ value, token.meaning = .operand value → token.lexeme ≠ []

namespace Machine

theorem length_le_of_step {token : Token} {stack next : Stack}
    (htoken : ∀ value, token.meaning = .operand value → token.lexeme ≠ [])
    (h : step token stack = .ok next) : next.length ≤ stack.length + token.lexeme.length := by
  rcases step_ok_inv h with
    ⟨value, hmeaning, rfl⟩ | ⟨op, left, right, rest, value, -, rfl, -, rfl⟩
  · have hpos := List.length_pos_iff.mpr (htoken value hmeaning)
    rw [List.length_cons]
    omega
  · simp only [List.length_cons]
    omega

/-- The stack grows by no more than the characters of the lexemes. -/
theorem length_le_of_run {tokens : List Token} {start final : Stack}
    (htokens : HasWrittenOperands tokens) (h : run tokens start = .ok final) :
    final.length ≤ start.length + (tokens.map Token.lexeme).flatten.length := by
  refine run_induction
    (motive := fun start final tokens => HasWrittenOperands tokens →
      final.length ≤ start.length + (tokens.map Token.lexeme).flatten.length)
    ?_ ?_ h htokens
  · intro stack _
    exact Nat.le_add_right _ _
  · intro start stack next consumed token ih hstep hconsumed
    have hstack := ih fun t ht => hconsumed t (List.mem_append_left _ ht)
    have hnext := length_le_of_step (hconsumed token (by simp)) hstep
    rw [List.map_append, List.flatten_append, List.length_append]
    simp only [List.map_cons, List.map_nil, List.flatten_singleton]
    omega

end Machine

theorem hasWrittenOperands_of_tokenize (h : tokenize expression skipEmpty = .ok tokens) :
    HasWrittenOperands tokens := by
  intro token hmem value hvalue hempty
  have hmeaning := ofLexeme_of_mem_tokenize h hmem
  have hunknown : Meaning.ofLexeme [] = .ok .unknown := rfl
  rw [hvalue, hempty, hunknown] at hmeaning
  cases hmeaning

theorem map_lexeme_of_tokenize (h : tokenize expression skipEmpty = .ok tokens) :
    tokens.map Token.lexeme = kept skipEmpty (lexemes expression) := by
  rw [← map_text_keptPieces, ← List.forall₂_eq_eq_eq, List.forall₂_map_left_iff,
    List.forall₂_map_right_iff]
  exact (carries_of_tokenize h).imp fun _ _ hcarries => hcarries.1

/-- No more values wait than the expression has characters. -/
theorem length_le_length_of_tokenize {final : Stack}
    (htokens : tokenize expression skipEmpty = .ok tokens)
    (h : Machine.run tokens [] = .ok final) : final.length ≤ expression.length := by
  have hfinal := Machine.length_le_of_run (hasWrittenOperands_of_tokenize htokens) h
  rw [map_lexeme_of_tokenize htokens, flatten_kept] at hfinal
  have hlexemes := (flatten_lexemes_sublist expression).length_le
  rw [List.length_nil] at hfinal
  omega

/-! ### What is told of a failure -/

/-- Whether an event tells on one line why an expression has no value. -/
structure LogEvent.Tells (event : LogEvent) (expression detail : Text) : Prop where
  level : event.level = .debug
  message : event.message =
    "Evaluation of ".toList ++ abbreviate expression ++ " failed: ".toList ++ detail
  printable : Printable event.message
  shown : ∀ c ∈ event.message, ¬ IsHidden c
  blank : ∀ c ∈ event.message, isBlank c = true → c = ' '

/-- How a failure of an expression is told: on one line, which is short if it is about a token,
and otherwise counts the values that wait at the end. -/
structure Told (expression : Text) (skipEmpty : Bool) (diagnostic : Diagnostic) : Prop where
  log : ∃ event, (evaluateLogged expression skipEmpty).log = [event] ∧
    event.Tells expression diagnostic.detail
  detail : Printable diagnostic.detail
  token : diagnostic.kind ≠ .malformedExpression → diagnostic.detail.length ≤ 85
  last : diagnostic.kind = .malformedExpression → ∃ tokens stack,
    tokenize expression skipEmpty = .ok tokens ∧ Machine.run tokens [] = .ok stack ∧
    diagnostic.detail.length = 52 + (natural stack.length).length ∧
    stack.length ≤ expression.length

theorem tells_evaluationFailed {detail : Text} (h : Printable detail) (expression : Text) :
    (LogEvent.evaluationFailed expression detail).Tells expression detail := by
  have hopening : Printable "Evaluation of ".toList := printable_of_ascii (by decide +kernel)
  have hfailed : Printable " failed: ".toList := printable_of_ascii (by decide +kernel)
  have hmessage : Printable (LogEvent.evaluationFailed expression detail).message :=
    ((hopening.append (printable_abbreviate expression)).append hfailed).append h
  have hshown : ∀ c ∈ (LogEvent.evaluationFailed expression detail).message, ¬ IsHidden c :=
    fun c hc => not_isHidden_of_isPrintable (hmessage c hc)
  refine ⟨rfl, rfl, hmessage, hshown, fun c hc hblank => ?_⟩
  by_contra hspace
  exact hshown c hc (isHidden_of_isBlank hblank hspace)

theorem exists_event_of_evaluate {reason : Failure}
    (h : evaluate expression skipEmpty = .ok (.failure reason))
    (hdetail : Printable reason.diagnostic.detail) :
    ∃ event, (evaluateLogged expression skipEmpty).log = [event] ∧
      event.Tells expression reason.diagnostic.detail := by
  refine ⟨.evaluationFailed expression reason.diagnostic.detail, ?_,
    tells_evaluationFailed hdetail expression⟩
  rw [evaluateLogged_of_ok h]
  rfl

/-- **A failure is told on one line, whatever the expression.** It is noted in one event, and
neither its message nor the detail of the diagnostic has a character that is not printable,
so no line end and no control or format character of the expression gets there. The detail
takes at most 85 code points, unless the expression is malformed as a whole. Then it takes 52
and the digits of the number of values that wait, no more of them than the expression has
characters. A quotation within a message is given whole in up to 40 code points, and
otherwise in exactly 40, with dots behind the first 18. -/
theorem told_of_evaluate {reason : Failure}
    (h : evaluate expression skipEmpty = .ok (.failure reason)) :
    Told expression skipEmpty reason.diagnostic ∧
      ∀ text, ((quote text).length ≤ 40 → abbreviate text = quote text) ∧
        (40 < (quote text).length → (abbreviate text).length = 40 ∧
          slice 18 21 (abbreviate text) = ['.', '.', '.']) := by
  refine ⟨?_, fun text => ⟨abbreviate_eq_quote, length_abbreviate⟩⟩
  obtain ⟨tokens, htokens, hcause⟩ := run_of_evaluate_failure h
  rcases hcause with ⟨stop, hrun, rfl⟩ | ⟨stack, hrun, rfl⟩
  · have hdetail := (ofToken_of_run_error htokens hrun).fits_detail
    refine ⟨exists_event_of_evaluate h hdetail.printable, hdetail.printable,
      fun _ => hdetail.length_le, ?_⟩
    intro hkind
    exact absurd hkind (Machine.kind_of_run_error hrun)
  · have hdetail := printable_detail_malformed stack.length
    refine ⟨exists_event_of_evaluate h hdetail, hdetail, fun hkind => absurd rfl hkind, ?_⟩
    intro _
    exact ⟨tokens, stack, htokens, hrun, length_detail_malformed stack.length,
      length_le_length_of_tokenize htokens hrun⟩

/-- Zero-width spaces in a lexeme do not get into the log. -/
theorem told_of_zero_width_spaces :
    let expression : Text := ['1', ' ', '\u200b', '\u200b']
    (∃ c ∈ expression, IsHidden c) ∧
      ∃ reason event, evaluate expression false = .ok (.failure reason) ∧
        reason.diagnostic.detail.length ≤ 85 ∧
        (evaluateLogged expression false).log = [event] ∧ ∀ c ∈ event.message, ¬ IsHidden c := by
  intro expression
  have hhidden : IsHidden '\u200b' := ⟨(0x2000, 0x200f), by decide, by decide⟩
  have hfailure : evaluate expression false =
      .ok (.failure ⟨(Fault.unknownOperator ['\u200b', '\u200b']).diagnostic,
        some ⟨expression, 2⟩⟩) := by
    decide +kernel
  obtain ⟨htold, -⟩ := told_of_evaluate hfailure
  obtain ⟨event, hlog, htells⟩ := htold.log
  refine ⟨⟨'\u200b', by decide, hhidden⟩, _, event, hfailure, ?_, hlog, htells.shown⟩
  exact htold.token (by decide)

end ReversePolish
