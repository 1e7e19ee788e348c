import ReversePolish.Proofs.Position
import ReversePolish.Proofs.Tokenize

/-!
# ReversePolish.Proofs.Judgement

What an expression comes to **by its lexemes alone**.

Outcomes are compared by their verdicts, and a verdict does not say where a failure
was found. White space and positions go into locations and nowhere else, so a verdict
must follow from the lexemes and their order. `judge` is what a list of lexemes comes
to, and `map_verdict_evaluate` says that this is the verdict of the expression.

Design points:

* Nothing is defined a second time: `judge` gives every lexeme the same place and an
  empty expression to be found in, and runs the machine on that.
* Leaving out empty lexemes is a function of lists (`kept`), which goes through
  appending.
-/

namespace ReversePolish

open Text

/-! ### Lexemes of an expression -/

/-- The lexemes of an expression, in order. -/
def lexemes (expression : Text) : List Text := (pieces expression).map Piece.text

/-- The lexemes that become tokens: all of them, or all but the empty ones. -/
def kept (skipEmpty : Bool) (lexemes : List Text) : List Text :=
  if skipEmpty then lexemes.filter fun lexeme => !lexeme.isEmpty else lexemes

@[simp] theorem kept_append (skipEmpty : Bool) (first second : List Text) :
    kept skipEmpty (first ++ second) = kept skipEmpty first ++ kept skipEmpty second := by
  unfold kept
  split
  · exact List.filter_append first second
  · rfl

theorem kept_singleton {lexeme : Text} (h : lexeme ≠ []) (skipEmpty : Bool) :
    kept skipEmpty [lexeme] = [lexeme] := by
  unfold kept
  split
  · exact List.filter_eq_self.mpr (by simp [h])
  · rfl

theorem lexemes_of_hasBlank {expression : Text} (h : expression.hasBlank = true) :
    lexemes expression = expression.splitOnP isBlank := by
  rw [lexemes, pieces_of_hasBlank h, map_text_placed]

theorem lexemes_of_not_hasBlank {expression : Text} (h : expression.hasBlank = false) :
    lexemes expression = expression.map fun c => [c] := by
  rw [lexemes, pieces_of_not_hasBlank h, map_text_densePieces]

/-- No lexeme holds white space. -/
theorem unbroken_of_mem_lexemes {expression lexeme : Text} (h : lexeme ∈ lexemes expression) :
    Unbroken lexeme := by
  cases hblank : expression.hasBlank with
  | true =>
      rw [lexemes_of_hasBlank hblank] at h
      exact unbroken_of_mem_splitOnP h
  | false =>
      rw [lexemes_of_not_hasBlank hblank] at h
      obtain ⟨c, hc, rfl⟩ := List.mem_map.mp h
      have hnone : isBlank c = false := by
        rw [hasBlank, List.any_eq_false] at hblank
        exact Bool.eq_false_iff.mpr (hblank c hc)
      exact List.forall_mem_singleton.mpr hnone

theorem mem_of_mem_kept {lexeme : Text} {lexemes : List Text} {skipEmpty : Bool}
    (h : lexeme ∈ kept skipEmpty lexemes) : lexeme ∈ lexemes := by
  unfold kept at h
  split at h
  · exact List.mem_of_mem_filter h
  · exact h

theorem map_text_keptPieces (expression : Text) (skipEmpty : Bool) :
    (keptPieces expression skipEmpty).map Piece.text = kept skipEmpty (lexemes expression) := by
  unfold keptPieces kept
  split
  · rw [lexemes, List.filter_map]
    rfl
  · rfl

/-- Leaving out empty lexemes leaves out no character. -/
theorem flatten_kept (skipEmpty : Bool) (lexemes : List Text) :
    (kept skipEmpty lexemes).flatten = lexemes.flatten := by
  unfold kept
  split
  · exact List.flatten_filter_not_isEmpty
  · rfl

theorem flatten_lexemes_sublist (expression : Text) :
    (lexemes expression).flatten.Sublist expression := by
  cases hblank : expression.hasBlank with
  | true =>
      rw [lexemes_of_hasBlank hblank]
      exact (Spaced.splitOnP expression).flatten_sublist
  | false =>
      rw [lexemes_of_not_hasBlank hblank, ← List.flatMap_def, List.flatMap_singleton']

/-! ### Tokens without a place -/

/-- The place of a token does not matter to what tokens come to. -/
theorem verdict_outcome (tokens : List Token) (expression : Text) :
    (Machine.outcome tokens expression).verdict =
      (Machine.outcome (tokens.map (Token.moved fun _ => 0)) []).verdict :=
  (moved_outcome (fun _ => 0) tokens expression []).verdict_eq

/-! ### Judging lexemes -/

/-- The token of a lexeme, wherever it stands. -/
def Token.ofLexeme (lexeme : Text) : Except Overlong Token := Token.classify lexeme 0

/-- What lexemes come to: a value or a diagnostic, unless one of them is overlong. -/
def judge (lexemes : List Text) : Except Overlong (Except Diagnostic Int) :=
  (lexemes.mapM Token.ofLexeme).map fun tokens => (Machine.outcome tokens []).verdict

theorem mapM_ofLexeme_of_tokenize (expression : Text) (skipEmpty : Bool) :
    (tokenize expression skipEmpty).map (List.map (Token.moved fun _ => 0)) =
      (kept skipEmpty (lexemes expression)).mapM Token.ofLexeme := by
  rw [tokenize, ← map_text_keptPieces]
  refine map_mapM (fun piece => ?_) _
  rw [ofPiece_eq, Token.ofLexeme, Token.classify]
  cases Meaning.ofLexeme piece.text <;> rfl

/-- The verdict of an expression is what its lexemes come to. -/
theorem map_verdict_evaluate (expression : Text) (skipEmpty : Bool) :
    (evaluate expression skipEmpty).map Outcome.verdict =
      judge (kept skipEmpty (lexemes expression)) := by
  rw [judge, ← mapM_ofLexeme_of_tokenize, evaluate_eq_map]
  cases tokenize expression skipEmpty with
  | error overlong => rfl
  | ok tokens => exact congrArg Except.ok (verdict_outcome tokens expression)

theorem judge_eq_value_iff {lexemes : List Text} {value : Int} :
    judge lexemes = .ok (.ok value) ↔
      ∃ tokens, lexemes.mapM Token.ofLexeme = .ok tokens ∧
        Machine.run tokens [] = .ok [value] := by
  unfold judge
  cases lexemes.mapM Token.ofLexeme with
  | error overlong => simp [Except.map]
  | ok tokens =>
      simp only [Except.map, Except.ok.injEq, exists_eq_left', Machine.verdict_outcome_eq_ok_iff]

end ReversePolish
