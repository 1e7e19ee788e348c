import ReversePolish.Proofs.Judgement
import ReversePolish.Proofs.Position
import ReversePolish.Proofs.Tokenize

/-!
# ReversePolish.Proofs.Spread

A **dense expression spread out** with white space comes to the same.

An expression without white space is cut into its characters, and one in which white
space stands between each two characters is cut at the white space. The lexemes are
the same, and the one that starts at index `i` of the dense form starts at `2 * i` of
the spread form, since one white-space character stands before each lexeme but the
first. So outcomes agree, and places are doubled (`evaluate_spread`).

Design points:

* A form of at most one character is spread out as it stands, and then it is dense
  both times.
* A lexeme of one character is never overlong, so there always is an outcome.
-/

namespace ReversePolish

open Text

/-- The text with one white-space character between each two characters. -/
inductive Spread : Text → Text → Prop
  | nil : Spread [] []
  | single (c : Char) : Spread [c] [c]
  | cons (c : Char) {blank d : Char} {rest spread : Text} :
      isBlank blank = true → Spread (d :: rest) spread →
      Spread (c :: d :: rest) (c :: blank :: spread)

/-- The characters of a text, each as a lexeme. -/
def singles (text : Text) : List Text := text.map fun c => [c]

@[simp] theorem singles_cons (c : Char) (text : Text) : singles (c :: text) = [c] :: singles text :=
  rfl

theorem ne_nil_of_mem_singles {text lexeme : Text} (h : lexeme ∈ singles text) : lexeme ≠ [] := by
  obtain ⟨c, -, rfl⟩ := List.mem_map.mp h
  exact List.cons_ne_nil c []

theorem unbroken_of_mem_singles {text lexeme : Text} (htext : text.hasBlank = false)
    (h : lexeme ∈ singles text) : Unbroken lexeme := by
  rw [singles, ← lexemes_of_not_hasBlank htext] at h
  exact unbroken_of_mem_lexemes h

theorem exists_meanings_singles (text : Text) :
    ∃ meanings, (singles text).mapM Meaning.ofLexeme = .ok meanings := by
  rw [exists_mapM_eq_ok_iff]
  intro lexeme hmem
  obtain ⟨c, -, rfl⟩ := List.mem_map.mp hmem
  have hshort : [c].length ≤ Literal.digitLimit := by simp [Literal.digitLimit]
  exact exists_ofLexeme_eq_ok_iff.mpr (isOverlong_eq_false_of_length_le hshort)

/-! ### The two ways of cutting -/

/-- Placed with one character between each two, the lexeme number `i` starts at twice
the index at which it starts when nothing stands between them. -/
theorem placed_singles (text : Text) (start : Nat) :
    placed (2 * start) (singles text) =
      (text.zipIdx start).map fun (c, index) => ⟨[c], 2 * index⟩ := by
  induction text generalizing start with
  | nil => rfl
  | cons c rest ih =>
      have hnext : 2 * start + [c].length + 1 = 2 * (start + 1) := by
        rw [List.length_singleton]
        omega
      rw [singles_cons, placed_cons, hnext, ih, List.zipIdx_cons, List.map_cons]

theorem tokenize_of_dense {text : Text} (htext : text.hasBlank = false) {meanings : List Meaning}
    (hmeanings : (singles text).mapM Meaning.ofLexeme = .ok meanings) (skipEmpty : Bool) :
    tokenize text skipEmpty = .ok (List.zipWith Piece.token (densePieces text) meanings) := by
  have hpieces : pieces text = densePieces text := pieces_of_not_hasBlank htext
  have hne : ∀ piece ∈ pieces text, piece.text ≠ [] := by
    intro piece hmem
    rw [hpieces] at hmem
    have htext : piece.text ∈ (densePieces text).map Piece.text := List.mem_map_of_mem hmem
    rw [map_text_densePieces] at htext
    exact ne_nil_of_mem_singles htext
  rw [tokenize, keptPieces_of_ne_nil hne, hpieces, mapM_ofPiece, map_text_densePieces, ← singles,
    hmeanings]
  rfl

theorem Spread.spaced {text spread : Text} (h : Spread text spread) (hne : text ≠ []) :
    Spaced (singles text) spread := by
  induction h with
  | nil => exact absurd rfl hne
  | single c => exact .single [c]
  | cons c hblank _ ih => exact .cons [c] hblank (ih (List.cons_ne_nil _ _))

theorem tokenize_of_spread {text spread : Text} (h : Spread text spread)
    (htext : text.hasBlank = false) {meanings : List Meaning}
    (hmeanings : (singles text).mapM Meaning.ofLexeme = .ok meanings) (skipEmpty : Bool) :
    tokenize spread skipEmpty =
      .ok (List.zipWith Piece.token (placed 0 (singles text)) meanings) := by
  cases h with
  | nil => exact tokenize_of_dense htext hmeanings skipEmpty
  | single c => exact tokenize_of_dense htext hmeanings skipEmpty
  | @cons c blank d rest spread hblank hrest =>
      have hspaced := (Spread.cons c hblank hrest).spaced (List.cons_ne_nil _ _)
      have hlexemes : ∀ lexeme ∈ singles (c :: d :: rest), Unbroken lexeme ∧ lexeme ≠ [] :=
        fun lexeme hmem => ⟨unbroken_of_mem_singles htext hmem, ne_nil_of_mem_singles hmem⟩
      exact tokenize_of_spaced hspaced hlexemes (by simp) hmeanings skipEmpty

/-- The tokens of the spread form are those of the dense form at doubled positions. -/
theorem zipWith_placed_singles (text : Text) (meanings : List Meaning) :
    List.zipWith Piece.token (placed 0 (singles text)) meanings =
      (List.zipWith Piece.token (densePieces text) meanings).map (Token.moved (2 * ·)) := by
  have hplaced : placed 0 (singles text) =
      (densePieces text).map fun piece => ⟨piece.text, 2 * piece.start⟩ := by
    rw [densePieces, List.map_map]
    exact placed_singles text 0
  rw [hplaced, List.zipWith_map_left, List.map_zipWith]
  rfl

/-- **Dense and spread forms agree.** An expression without white space and the same
expression with one white-space character between each two characters both have an
outcome, whether empty lexemes are left out or not. It is the same value or the same
diagnostic; a failure at a token is found at twice the index, and a failure of the whole
at the end of either form. -/
theorem evaluate_spread {expression spread : Text} (hdense : expression.hasBlank = false)
    (hspread : Spread expression spread) (skipEmpty skipEmpty' : Bool) :
    ∃ outcome outcome', evaluate expression skipEmpty = .ok outcome ∧
      evaluate spread skipEmpty' = .ok outcome' ∧ outcome.verdict = outcome'.verdict ∧
      Outcome.Moved (2 * ·) expression spread outcome outcome' := by
  obtain ⟨meanings, hmeanings⟩ := exists_meanings_singles expression
  have hmoved := moved_outcome (2 * ·)
    (List.zipWith Piece.token (densePieces expression) meanings) expression spread
  refine ⟨_, _, ?_, ?_, hmoved.verdict_eq, hmoved⟩
  · exact evaluate_of_tokenize (tokenize_of_dense hdense hmeanings skipEmpty)
  · rw [← zipWith_placed_singles]
    exact evaluate_of_tokenize (tokenize_of_spread hspread hdense hmeanings skipEmpty')

/-- In `555-%` five is divided by a difference of zero: at index 4, and at index 8 when it
is spread out. -/
theorem evaluate_five_modulo_difference_spread :
    evaluate ['5', '5', '5', '-', '%'] true =
      .ok (.failure ⟨(Fault.divisionByZero ['%'] 5).diagnostic,
        some ⟨['5', '5', '5', '-', '%'], 4⟩⟩) ∧
    evaluate ['5', ' ', '5', '\t', '5', '\n', '-', '\u3000', '%'] false =
      .ok (.failure ⟨(Fault.divisionByZero ['%'] 5).diagnostic,
        some ⟨['5', ' ', '5', '\t', '5', '\n', '-', '\u3000', '%'], 8⟩⟩) := by
  have hspread : Spread ['5', '5', '5', '-', '%']
      ['5', ' ', '5', '\t', '5', '\n', '-', '\u3000', '%'] :=
    .cons '5' rfl (.cons '5' rfl (.cons '5' rfl (.cons '-' rfl (.single '%'))))
  have hdense : evaluate ['5', '5', '5', '-', '%'] true =
      .ok (.failure ⟨(Fault.divisionByZero ['%'] 5).diagnostic,
        some ⟨['5', '5', '5', '-', '%'], 4⟩⟩) := by
    decide
  refine ⟨hdense, ?_⟩
  obtain ⟨outcome, outcome', houtcome, houtcome', -, hmoved⟩ :=
    evaluate_spread rfl hspread true false
  rw [hdense] at houtcome
  cases houtcome
  cases hmoved
  exact houtcome'

end ReversePolish
