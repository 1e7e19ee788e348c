import ReversePolish.Proofs.Judgement

/-!
# ReversePolish.Proofs.Padding

With empty lexemes left out, **only the words of an expression matter**.

White space then pads the words of an expression, the longest parts of it without white
space: how much there is between two words, of which kind, and whether there is some at
either end, makes no difference (`evaluate_padded`). One space between each two words does
as well, and then no lexeme is empty in the first place.

Design points:

* `Padded` puts a text together from its words and white space and says nothing about
  cutting. Every text has its words in one way (`padded_iff`), which are the lexemes that
  are kept.
* A single word with no white space around it is an expression of another layout, in which
  every character is a lexeme. No word at all is no lexeme in either layout.
-/

namespace ReversePolish

open Text

/-- A text and its words, the longest parts of it without white space: white space stands
between each two words, and wherever else. -/
inductive Padded : List Text → Text → Prop
  | nil : Padded [] []
  | blank {c : Char} {words : List Text} {text : Text} :
      isBlank c = true → Padded words text → Padded words (c :: text)
  | word {word : Text} {words : List Text} {text : Text} :
      word ≠ [] → Unbroken word → StartsBlank text → Padded words text →
      Padded (word :: words) (word ++ text)

variable {words : List Text} {text : Text}

/-! ### Cutting a padded text -/

theorem kept_splitOnP_blank {c : Char} (h : isBlank c = true) (text : Text) :
    kept true ((c :: text).splitOnP isBlank) = kept true (text.splitOnP isBlank) := by
  have hsplit : (c :: text).splitOnP isBlank = [].splitOnP isBlank ++ text.splitOnP isBlank :=
    List.splitOnP_append_cons [] text h
  rw [hsplit, kept_append]
  rfl

theorem kept_splitOnP_word {word : Text} (hne : word ≠ []) (hword : Unbroken word)
    (htext : StartsBlank text) :
    kept true ((word ++ text).splitOnP isBlank) = word :: kept true (text.splitOnP isBlank) := by
  rcases htext with rfl | ⟨blank, rest, hblank, rfl⟩
  · rw [List.append_nil, splitOnP_unbroken hword, kept_singleton hne]
    rfl
  · rw [List.splitOnP_append_cons word rest hblank, kept_append, splitOnP_unbroken hword,
      kept_singleton hne, kept_splitOnP_blank hblank]
    rfl

theorem Padded.kept_splitOnP (h : Padded words text) :
    kept true (text.splitOnP isBlank) = words := by
  induction h with
  | nil => rfl
  | blank hblank _ ih => rw [kept_splitOnP_blank hblank, ih]
  | word hne hword htext _ ih => rw [kept_splitOnP_word hne hword htext, ih]

/-- The lexemes that are not empty pad the text that they are spaced in. -/
theorem Spaced.padded {lexemes : List Text} (h : Spaced lexemes text)
    (hunbroken : ∀ lexeme ∈ lexemes, Unbroken lexeme) : Padded (kept true lexemes) text := by
  induction h with
  | single lexeme =>
      by_cases hempty : lexeme = []
      · subst hempty
        exact .nil
      · have hlexeme := hunbroken lexeme List.mem_cons_self
        have hpadded := Padded.word hempty hlexeme (Or.inl rfl) .nil
        rwa [List.append_nil, ← kept_singleton hempty true] at hpadded
  | @cons lexeme blank rest text hblank _ ih =>
      obtain ⟨hlexeme, hrest⟩ := List.forall_mem_cons.mp hunbroken
      have hpadded := Padded.blank hblank (ih hrest)
      by_cases hempty : lexeme = []
      · subst hempty
        exact hpadded
      · have hkept : kept true (lexeme :: rest) = lexeme :: kept true rest :=
          (kept_append true [lexeme] rest).trans
            (congrArg (· ++ kept true rest) (kept_singleton hempty true))
        rw [hkept]
        exact .word hempty hlexeme (Or.inr ⟨blank, text, hblank, rfl⟩) hpadded

/-- The words of a text are its lexemes without the empty ones. -/
theorem padded_iff : Padded words text ↔ kept true (text.splitOnP isBlank) = words := by
  constructor
  · exact Padded.kept_splitOnP
  · intro h
    rw [← h]
    exact (Spaced.splitOnP text).padded fun _ => unbroken_of_mem_splitOnP

/-! ### One space between each two words -/

theorem Padded.unbroken (h : Padded words text) : ∀ word ∈ words, Unbroken word := by
  induction h with
  | nil => exact fun _ hmem => absurd hmem List.not_mem_nil
  | blank _ _ ih => exact ih
  | word _ hword _ _ ih => exact List.forall_mem_cons.mpr ⟨hword, ih⟩

theorem spaced_intercalate (h : words ≠ []) : Spaced words ([' '].intercalate words) := by
  induction words with
  | nil => exact absurd rfl h
  | cons word words ih =>
      cases words with
      | nil =>
          rw [List.intercalate_singleton]
          exact .single word
      | cons next words =>
          rw [List.intercalate_cons_cons, List.append_assoc]
          exact .cons word rfl (ih (List.cons_ne_nil next words))

/-- Words with single spaces between them are the lexemes, unless there is one word only. -/
theorem lexemes_intercalate (hwords : ∀ word ∈ words, Unbroken word) (hlength : words.length ≠ 1) :
    lexemes ([' '].intercalate words) = words := by
  cases words with
  | nil => rfl
  | cons word words =>
      have hspaced : Spaced (word :: words) ([' '].intercalate (word :: words)) :=
        spaced_intercalate (List.cons_ne_nil word words)
      have hblank := hspaced.hasBlank (by simp only [List.length_cons] at hlength ⊢; omega)
      rw [lexemes_of_hasBlank hblank, hspaced.splitOnP_eq hwords]

theorem map_verdict_of_padded (hblank : text.hasBlank = true) (h : Padded words text) :
    (evaluate text true).map Outcome.verdict = judge words := by
  rw [map_verdict_evaluate, lexemes_of_hasBlank hblank, padded_iff.mp h]

/-- **Only the words matter.** An expression with white space has its words in one way. With
empty lexemes left out, it comes to the same as any other expression with white space that
has the same words: the same value, the same diagnostic, or the same overlong literal. And
unless it has one word only, it comes to the same as its words with single spaces between
them, where no lexeme is left out. -/
theorem evaluate_padded {expression : Text} (hblank : expression.hasBlank = true) :
    ∃ words, (∀ words', Padded words' expression ↔ words' = words) ∧
      (∀ expression', expression'.hasBlank = true → Padded words expression' →
        (evaluate expression true).map Outcome.verdict =
          (evaluate expression' true).map Outcome.verdict) ∧
      (words.length ≠ 1 →
        (evaluate expression true).map Outcome.verdict =
          (evaluate ([' '].intercalate words) false).map Outcome.verdict) := by
  have hpadded : Padded (kept true (expression.splitOnP isBlank)) expression := padded_iff.mpr rfl
  refine ⟨_, fun words' => padded_iff.trans eq_comm, ?_, ?_⟩
  · intro expression' hblank' hpadded'
    rw [map_verdict_of_padded hblank hpadded, map_verdict_of_padded hblank' hpadded']
  · intro hlength
    rw [map_verdict_of_padded hblank hpadded, map_verdict_evaluate,
      lexemes_intercalate hpadded.unbroken hlength]
    rfl

/-- A padded product comes to the same as one with other padding and as one with none, and
nothing but padding to the same as nothing. -/
theorem evaluate_padded_product :
    let padded : Text := ['\t', '1', '2', ' ', '\u3000', '5', '\n', '*', ' ']
    let spaced : Text := ['1', '2', ' ', '5', ' ', '*']
    (evaluate padded true).map Outcome.verdict =
        (evaluate ('\r' :: spaced) true).map Outcome.verdict ∧
      (evaluate padded true).map Outcome.verdict = (evaluate spaced false).map Outcome.verdict ∧
      (evaluate [' ', '\n'] true).map Outcome.verdict =
        (evaluate [] false).map Outcome.verdict := by
  intro padded spaced
  have hwords (text : Text) (h : kept true (text.splitOnP isBlank) = [['1', '2'], ['5'], ['*']]) :
      Padded [['1', '2'], ['5'], ['*']] text := padded_iff.mpr h
  have hproduct : padded.hasBlank = true := rfl
  obtain ⟨words, hunique, hsame, hjoined⟩ := evaluate_padded hproduct
  obtain rfl := (hunique _).mp (hwords padded (by decide))
  have hpadding : hasBlank [' ', '\n'] = true := rfl
  obtain ⟨words, hunique, -, hnothing⟩ := evaluate_padded hpadding
  obtain rfl := (hunique _).mp (.blank rfl (.blank rfl .nil))
  exact ⟨hsame _ rfl (hwords _ (by decide)), hjoined (by decide), hnothing (by decide)⟩

/-- A single word is not one lexeme when nothing pads it. -/
example : evaluate [' ', '1', '2'] true = .ok (.success 12) ∧
    evaluate ([' '].intercalate [['1', '2']]) false =
      .ok (.failure ⟨(Fault.malformed 2).diagnostic, some ⟨['1', '2'], 2⟩⟩) := by
  decide

end ReversePolish
