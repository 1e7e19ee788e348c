import ReversePolish.Proofs.Decomposition
import ReversePolish.Proofs.Recognition
import ReversePolish.Proofs.Replacement

/-!
# ReversePolish.Proofs.Spelling

**How an expression is spelled** does not matter.

White space of one kind may stand for white space of another, and a number may be written
with a sign or with leading zeros. Neither can be told from what the expression comes to.
Cutting does not ask which white space it cuts at. The lexeme of an operand is read once,
when it is given its meaning, and the machine never looks at it again, so that a token may
as well forget it (`Machine.run_unspelled`). Tokens of two spellings are the same but for
what they forget (`map_unspelled_classify`).

Design points:

* Messages quote the lexemes of operators and of unknown tokens, and those stay as they are.
* Places are compared only where each lexeme keeps its length. Then every lexeme starts where
  it did, and the text ends where it did.
-/

namespace ReversePolish

open Text

/-! ### Lexemes in another spelling -/

/-- Whether one lexeme may be written for another: it is the same, or both are operands of
one value. -/
inductive Respelled : Text → Text → Prop
  | same (lexeme : Text) : Respelled lexeme lexeme
  | operand {lexeme lexeme' : Text} {value : Int} :
      Meaning.ofLexeme lexeme = .ok (.operand value) →
      Meaning.ofLexeme lexeme' = .ok (.operand value) → Respelled lexeme lexeme'

theorem exists_numeral_of_operand {lexeme : Text} {value : Int}
    (h : Meaning.ofLexeme lexeme = .ok (.operand value)) :
    ∃ numeral : Numeral, numeral.text = lexeme := by
  obtain ⟨⟨numeral, htext, -⟩, -⟩ := Literal.read_eq_some_iff.mp (ofLexeme_eq_operand_iff.mp h)
  exact ⟨numeral, htext⟩

theorem ne_nil_of_operand {lexeme : Text} {value : Int}
    (h : Meaning.ofLexeme lexeme = .ok (.operand value)) : lexeme ≠ [] := by
  rintro rfl
  have hunknown : Meaning.ofLexeme [] = .ok .unknown := rfl
  rw [hunknown] at h
  cases h

namespace Respelled

variable {lexeme lexeme' : Text}

theorem unbroken (h : Respelled lexeme lexeme') (hunbroken : Unbroken lexeme) :
    Unbroken lexeme' := by
  cases h with
  | same => exact hunbroken
  | operand _ hlexeme' =>
      obtain ⟨numeral, rfl⟩ := exists_numeral_of_operand hlexeme'
      exact numeral.unbroken_text

theorem isEmpty_eq (h : Respelled lexeme lexeme') : lexeme.isEmpty = lexeme'.isEmpty := by
  cases h with
  | same => rfl
  | operand hlexeme hlexeme' =>
      rw [List.isEmpty_eq_false_iff.mpr (ne_nil_of_operand hlexeme),
        List.isEmpty_eq_false_iff.mpr (ne_nil_of_operand hlexeme')]

end Respelled

/-! ### Tokens without a spelling -/

/-- A token that has forgotten how its operand was written. -/
def Token.unspelled (token : Token) : Token :=
  match token.meaning with
  | .operand _ => { token with lexeme := [] }
  | _ => token

namespace Token

variable (token : Token)

@[simp] theorem start_unspelled : token.unspelled.start = token.start := by
  unfold unspelled
  split <;> rfl

@[simp] theorem meaning_unspelled : token.unspelled.meaning = token.meaning := by
  unfold unspelled
  split <;> rfl

theorem lexeme_unspelled (h : ∀ value, token.meaning ≠ .operand value) :
    token.unspelled.lexeme = token.lexeme := by
  unfold unspelled
  split
  · next value hmeaning => exact absurd hmeaning (h value)
  · rfl

end Token

/-- Tokens of two spellings differ only in what they forget. -/
theorem map_unspelled_classify {lexeme lexeme' : Text} (h : Respelled lexeme lexeme')
    (start : Int) :
    (Token.classify lexeme start).map Token.unspelled =
      (Token.classify lexeme' start).map Token.unspelled := by
  cases h with
  | same => rfl
  | operand hlexeme hlexeme' =>
      rw [Token.classify, Token.classify, hlexeme, hlexeme']
      rfl

namespace Machine

theorem step_unspelled (token : Token) (stack : Stack) :
    step token.unspelled stack = step token stack := by
  cases hmeaning : token.meaning with
  | operand value =>
      rw [step_operand hmeaning, step_operand (token.meaning_unspelled.trans hmeaning)]
  | operator op =>
      have hlexeme := token.lexeme_unspelled (by simp [hmeaning])
      rw [step_operator hmeaning, step_operator (token.meaning_unspelled.trans hmeaning),
        hlexeme]
  | unknown =>
      have hlexeme := token.lexeme_unspelled (by simp [hmeaning])
      rw [step_unknown hmeaning, step_unknown (token.meaning_unspelled.trans hmeaning), hlexeme]

/-- The machine does not see how an operand was written. -/
theorem run_unspelled (tokens : List Token) (stack : Stack) :
    run (tokens.map Token.unspelled) stack = run tokens stack := by
  induction tokens generalizing stack with
  | nil => rfl
  | cons token rest ih =>
      have hstep := step_unspelled token stack
      rw [List.map_cons]
      cases h : step token stack with
      | ok next => rw [run_cons_ok h, run_cons_ok (hstep.trans h), ih]
      | error fault => rw [run_cons_error h, run_cons_error (hstep.trans h), Token.start_unspelled]

theorem run_eq_of_map_unspelled {tokens tokens' : List Token}
    (h : tokens.map Token.unspelled = tokens'.map Token.unspelled) (stack : Stack) :
    run tokens stack = run tokens' stack := by
  rw [← run_unspelled tokens, h, run_unspelled]

end Machine

/-! ### What respelled lexemes come to -/

/-- Elements that match are kept or left out together. -/
theorem forall₂_filter {α : Type} {relation : α → α → Prop} {keeps : α → Bool}
    (hkeeps : ∀ a a', relation a a' → keeps a = keeps a') {l l' : List α}
    (h : List.Forall₂ relation l l') :
    List.Forall₂ relation (l.filter keeps) (l'.filter keeps) := by
  refine List.rel_filter (fun a a' hmatch => ?_) h
  show keeps a = true ↔ keeps a' = true
  rw [hkeeps a a' hmatch]

theorem kept_respelled {lexemes lexemes' : List Text} (h : List.Forall₂ Respelled lexemes lexemes')
    (skipEmpty : Bool) :
    List.Forall₂ Respelled (kept skipEmpty lexemes) (kept skipEmpty lexemes') := by
  unfold kept
  split
  · exact forall₂_filter (fun _ _ hrespelled => by rw [hrespelled.isEmpty_eq]) h
  · exact h

/-- Lexemes come to the same in every spelling. -/
theorem judge_respelled {lexemes lexemes' : List Text}
    (h : List.Forall₂ Respelled lexemes lexemes') : judge lexemes = judge lexemes' := by
  have htokens : (lexemes.mapM Token.ofLexeme).map (List.map Token.unspelled) =
      (lexemes'.mapM Token.ofLexeme).map (List.map Token.unspelled) :=
    map_mapM_congr (h.imp fun _ _ hrespelled => map_unspelled_classify hrespelled 0)
  refine map_eq_of_map_eq htokens fun tokens tokens' hunspelled => ?_
  rw [outcome_congr (Machine.run_eq_of_map_unspelled hunspelled [])]

/-! ### Where respelled lexemes stand -/

/-- The index at which a failure was found. -/
def Outcome.index? : Outcome → Option Int
  | success _ => none
  | failure reason => reason.location.map Location.position

/-- Whether two pieces start at one index and are written for each other. -/
structure Piece.Respelled (piece piece' : Piece) : Prop where
  start : piece.start = piece'.start
  text : ReversePolish.Respelled piece.text piece'.text

theorem placed_respelled {lexemes lexemes' : List Text}
    (h : List.Forall₂ Respelled lexemes lexemes')
    (hlengths : lexemes.map List.length = lexemes'.map List.length) (start : Nat) :
    List.Forall₂ Piece.Respelled (placed start lexemes) (placed start lexemes') := by
  induction h generalizing start with
  | nil => exact .nil
  | cons hrespelled hrest ih =>
      rw [List.map_cons, List.map_cons, List.cons.injEq] at hlengths
      rw [placed_cons, placed_cons, hlengths.1]
      exact .cons ⟨rfl, hrespelled⟩ (ih hlengths.2 _)

/-- One character stands between each two lexemes. -/
theorem Spaced.length_text {lexemes : List Text} {text : Text} (h : Spaced lexemes text) :
    text.length + 1 = lexemes.flatten.length + lexemes.length := by
  induction h with
  | single lexeme => rw [List.flatten_singleton, List.length_singleton]
  | cons lexeme _ _ ih =>
      rw [List.flatten_cons, List.length_append, List.length_append, List.length_cons,
        List.length_cons]
      omega

/-- Lexemes of the same lengths make texts of the same length. -/
theorem Spaced.length_congr {lexemes lexemes' : List Text} {text text' : Text}
    (h : Spaced lexemes text) (h' : Spaced lexemes' text')
    (hlengths : lexemes.map List.length = lexemes'.map List.length) :
    text.length = text'.length := by
  have hflatten : lexemes.flatten.length = lexemes'.flatten.length := by
    rw [List.length_flatten, hlengths, ← List.length_flatten]
  have hcount : lexemes.length = lexemes'.length := by
    simpa only [List.length_map] using congrArg List.length hlengths
  have htext := h.length_text
  have htext' := h'.length_text
  omega

theorem index?_outcome {tokens tokens' : List Token} {expression expression' : Text}
    (h : tokens.map Token.unspelled = tokens'.map Token.unspelled)
    (hlength : expression.length = expression'.length) :
    (Machine.outcome tokens expression).index? = (Machine.outcome tokens' expression').index? := by
  have hresult : Machine.result tokens expression.length =
      Machine.result tokens' expression'.length := by
    rw [Machine.result, Machine.result, Machine.run_eq_of_map_unspelled h, hlength]
  rw [Machine.outcome, Machine.outcome, hresult]
  cases Machine.result tokens' expression'.length <;> rfl

theorem map_index?_evaluate (expression : Text) (skipEmpty : Bool) :
    (evaluate expression skipEmpty).map Outcome.index? =
      (tokenize expression skipEmpty).map fun tokens =>
        (Machine.outcome tokens expression).index? := by
  rw [evaluate_eq_map]
  cases tokenize expression skipEmpty <;> rfl

/-! ### Expressions in another spelling -/

section

variable {expression expression' : Text} {lexemes' : List Text}

theorem spaced_lexemes (h : expression.hasBlank = true) :
    Spaced (lexemes expression) expression := by
  rw [lexemes_of_hasBlank h]
  exact Spaced.splitOnP expression

theorem two_le_length_lexemes (h : expression.hasBlank = true) :
    2 ≤ (lexemes expression).length := by
  have hcount : 0 < expression.countP isBlank := List.countP_pos_iff.mpr (List.any_eq_true.mp h)
  rw [(spaced_lexemes h).length_eq fun _ => unbroken_of_mem_lexemes]
  omega

/-- The lexemes of an expression that is put together from respelled ones. -/
theorem pieces_respelled (hblank : expression.hasBlank = true)
    (hrespelled : List.Forall₂ Respelled (lexemes expression) lexemes')
    (hspaced : Spaced lexemes' expression') : pieces expression' = placed 0 lexemes' := by
  have hlength : 2 ≤ lexemes'.length := hrespelled.length_eq ▸ two_le_length_lexemes hblank
  refine pieces_of_spaced hspaced (fun lexeme' hmem => ?_) hlength
  obtain ⟨i, hi, rfl⟩ := List.getElem_of_mem hmem
  have hbound : i < (lexemes expression).length := by rwa [hrespelled.length_eq]
  have hlexeme := unbroken_of_mem_lexemes (List.getElem_mem hbound)
  exact (hrespelled.get hbound hi).unbroken hlexeme

theorem tokenize_respelled (hblank : expression.hasBlank = true)
    (hrespelled : List.Forall₂ Respelled (lexemes expression) lexemes')
    (hspaced : Spaced lexemes' expression')
    (hlengths : (lexemes expression).map List.length = lexemes'.map List.length)
    (skipEmpty : Bool) :
    (tokenize expression skipEmpty).map (List.map Token.unspelled) =
      (tokenize expression' skipEmpty).map (List.map Token.unspelled) := by
  have hpieces : List.Forall₂ Piece.Respelled (pieces expression) (pieces expression') := by
    rw [pieces_respelled hblank hrespelled hspaced, pieces_of_hasBlank hblank,
      ← lexemes_of_hasBlank hblank]
    exact placed_respelled hrespelled hlengths 0
  have hkept : List.Forall₂ Piece.Respelled (keptPieces expression skipEmpty)
      (keptPieces expression' skipEmpty) := by
    unfold keptPieces
    split
    · exact forall₂_filter (fun _ _ hpiece => by rw [hpiece.text.isEmpty_eq]) hpieces
    · exact hpieces
  refine map_mapM_congr (hkept.imp fun piece piece' hpiece => ?_)
  rw [Token.ofPiece, Token.ofPiece, hpiece.start]
  exact map_unspelled_classify hpiece.text _

/-- **Spelling does not matter.** Let the white space of an expression be replaced by other
white space, character by character, and operands by operands of the same values. Then the
expression comes to the same value, or fails with the same diagnostic, or has the same overlong
literal. If each lexeme keeps its length, a failure is found at the same index. -/
theorem evaluate_respelled (hblank : expression.hasBlank = true)
    (hrespelled : List.Forall₂ Respelled (lexemes expression) lexemes')
    (hspaced : Spaced lexemes' expression') (skipEmpty : Bool) :
    (evaluate expression skipEmpty).map Outcome.verdict =
        (evaluate expression' skipEmpty).map Outcome.verdict ∧
      ((lexemes expression).map List.length = lexemes'.map List.length →
        (evaluate expression skipEmpty).map Outcome.index? =
          (evaluate expression' skipEmpty).map Outcome.index?) := by
  have hlexemes : lexemes expression' = lexemes' := by
    rw [lexemes, pieces_respelled hblank hrespelled hspaced, map_text_placed]
  constructor
  · -- The pieces may start elsewhere now, and a verdict follows from the lexemes alone.
    rw [map_verdict_evaluate, map_verdict_evaluate, hlexemes]
    exact judge_respelled (kept_respelled hrespelled skipEmpty)
  · intro hlengths
    have hlength := (spaced_lexemes hblank).length_congr hspaced hlengths
    have htokens := tokenize_respelled hblank hrespelled hspaced hlengths skipEmpty
    rw [map_index?_evaluate, map_index?_evaluate]
    exact map_eq_of_map_eq htokens fun _ _ hunspelled => index?_outcome hunspelled hlength

/-- Seven divided by zero: other signs, an ideographic space and a tab change neither the failure
nor its index, and one more digit changes the index only. -/
theorem evaluate_seven_over_zero_respelled :
    let expression : Text := ['0', '7', ' ', '+', '0', ' ', '/']
    let tabbed : Text := ['+', '7', '\u3000', '-', '0', '\t', '/']
    let longer : Text := ['+', '0', '7', ' ', '-', '0', ' ', '/']
    (evaluate expression false).map Outcome.verdict = (evaluate tabbed false).map Outcome.verdict ∧
      (evaluate expression false).map Outcome.index? =
        (evaluate tabbed false).map Outcome.index? ∧
      (evaluate expression false).map Outcome.verdict =
        (evaluate longer false).map Outcome.verdict ∧
      (evaluate expression false).map Outcome.index? ≠
        (evaluate longer false).map Outcome.index? := by
  intro expression tabbed longer
  have hblank : expression.hasBlank = true := rfl
  have hlexemes : lexemes expression = [['0', '7'], ['+', '0'], ['/']] := by decide
  have hseven : Meaning.ofLexeme ['0', '7'] = .ok (.operand 7) := by decide
  have hsigned : Meaning.ofLexeme ['+', '7'] = .ok (.operand 7) := by decide
  have hlong : Meaning.ofLexeme ['+', '0', '7'] = .ok (.operand 7) := by decide
  have hzero : Meaning.ofLexeme ['+', '0'] = .ok (.operand 0) := by decide
  have hnegative : Meaning.ofLexeme ['-', '0'] = .ok (.operand 0) := by decide
  have htabbed : List.Forall₂ Respelled (lexemes expression) [['+', '7'], ['-', '0'], ['/']] := by
    rw [hlexemes]
    exact .cons (.operand hseven hsigned) (.cons (.operand hzero hnegative) (.cons (.same _) .nil))
  have hlonger : List.Forall₂ Respelled (lexemes expression)
      [['+', '0', '7'], ['-', '0'], ['/']] := by
    rw [hlexemes]
    exact .cons (.operand hseven hlong) (.cons (.operand hzero hnegative) (.cons (.same _) .nil))
  have hspaced : Spaced [['+', '7'], ['-', '0'], ['/']] tabbed :=
    .cons ['+', '7'] (by decide) (.cons ['-', '0'] (by decide) (.single ['/']))
  have hspaced' : Spaced [['+', '0', '7'], ['-', '0'], ['/']] longer :=
    .cons ['+', '0', '7'] (by decide) (.cons ['-', '0'] (by decide) (.single ['/']))
  obtain ⟨hverdict, hindex⟩ := evaluate_respelled hblank htabbed hspaced false
  obtain ⟨hverdict', -⟩ := evaluate_respelled hblank hlonger hspaced' false
  exact ⟨hverdict, hindex (by rw [hlexemes]; rfl), hverdict', by decide +kernel⟩

end

end ReversePolish
