import Mathlib.Data.List.Forall2
import ReversePolish.Proofs.Lexeme
import ReversePolish.Proofs.Numeral

/-!
# ReversePolish.Proofs.Tokenize

From **pieces to tokens**.

The meaning of a token comes from its lexeme alone and its position from the piece
alone, so tokenizing is giving every lexeme its meaning and putting the two side by
side (`mapM_ofPiece`). It fails exactly when some lexeme is an overlong literal
(`exists_tokenize_eq_ok_iff`), and in a dense expression none is.
-/

namespace ReversePolish

open Text

/-! ### Actions on every element -/

section MapM

variable {α β ε : Type} {f : α → Except ε β}

theorem map_eq_error_iff {g : α → β} {result : Except ε α} {e : ε} :
    result.map g = .error e ↔ result = .error e := by
  cases result <;> simp [Except.map]

/-- What is made of a result depends on no more of it than `g` shows. -/
theorem map_eq_of_map_eq {γ : Type} {g : α → β} {make make' : α → γ} {result result' : Except ε α}
    (h : result.map g = result'.map g) (hmake : ∀ a a', g a = g a' → make a = make' a') :
    result.map make = result'.map make' := by
  cases result with
  | error e => rw [map_eq_error_iff.mp h.symm]; rfl
  | ok a =>
      cases result' with
      | error e => cases h
      | ok a' => exact congrArg Except.ok (hmake a a' (Except.ok.inj h))

theorem mapM_cons_ok {a : α} {rest : List α} {b : β} (h : f a = .ok b) :
    (a :: rest).mapM f = (rest.mapM f).map (b :: ·) := by
  rw [List.mapM_cons, h]
  cases rest.mapM f <;> rfl

theorem mapM_cons_error {a : α} {rest : List α} {e : ε} (h : f a = .error e) :
    (a :: rest).mapM f = .error e := by
  rw [List.mapM_cons, h]
  rfl

theorem mapM_append_of_ok {first : List α} {results : List β} (h : first.mapM f = .ok results)
    (second : List α) : (first ++ second).mapM f = (second.mapM f).map (results ++ ·) := by
  rw [List.mapM_append, h]
  cases second.mapM f <;> rfl

theorem mapM_append_of_error {first : List α} {e : ε} (h : first.mapM f = .error e)
    (second : List α) : (first ++ second).mapM f = .error e := by
  rw [List.mapM_append, h]
  rfl

theorem mapM_append_ok {first second : List α} {results results' : List β}
    (hfirst : first.mapM f = .ok results) (hsecond : second.mapM f = .ok results') :
    (first ++ second).mapM f = .ok (results ++ results') := by
  rw [mapM_append_of_ok hfirst, hsecond]
  rfl

/-- Invert actions on a list that goes on: both parts have results of their own. -/
theorem mapM_append_inv {first second : List α} {results : List β}
    (h : (first ++ second).mapM f = .ok results) :
    ∃ before after, first.mapM f = .ok before ∧ second.mapM f = .ok after ∧
      results = before ++ after := by
  cases hfirst : first.mapM f with
  | error e =>
      rw [mapM_append_of_error hfirst] at h
      cases h
  | ok before =>
      rw [mapM_append_of_ok hfirst] at h
      cases hsecond : second.mapM f with
      | error e =>
          rw [hsecond] at h
          cases h
      | ok after =>
          rw [hsecond] at h
          cases h
          exact ⟨before, after, rfl, rfl, rfl⟩

/-- All actions succeed when each of them does, with its own result. -/
theorem mapM_eq_ok_iff {l : List α} {results : List β} :
    l.mapM f = .ok results ↔ List.Forall₂ (fun a b => f a = .ok b) l results := by
  induction l generalizing results with
  | nil =>
      rw [List.mapM_nil, List.forall₂_nil_left_iff]
      exact ⟨fun h => (Except.ok.inj h).symm, fun h => by rw [h]; rfl⟩
  | cons a rest ih =>
      rw [List.forall₂_cons_left_iff]
      cases ha : f a with
      | error e => simp [mapM_cons_error ha]
      | ok b =>
          rw [mapM_cons_ok ha]
          cases hrest : rest.mapM f with
          | error e => simp [Except.map, ← ih, hrest]
          | ok bs => simp [Except.map, ← ih, hrest, eq_comm]

theorem exists_mapM_eq_ok_iff {l : List α} :
    (∃ results, l.mapM f = .ok results) ↔ ∀ a ∈ l, ∃ b, f a = .ok b := by
  induction l with
  | nil => simp [pure, Except.pure]
  | cons a rest ih =>
      rw [List.forall_mem_cons, ← ih]
      cases ha : f a with
      | error e => simp [mapM_cons_error ha]
      | ok b =>
          rw [mapM_cons_ok ha]
          cases hrest : rest.mapM f with
          | error e => simp [Except.map]
          | ok bs => simp [Except.map]

theorem exists_of_mem_mapM {l : List α} {results : List β} {b : β} (h : l.mapM f = .ok results)
    (hb : b ∈ results) : ∃ a ∈ l, f a = .ok b := by
  have hall := mapM_eq_ok_iff.mp h
  obtain ⟨i, hi, rfl⟩ := List.getElem_of_mem hb
  have hbound : i < l.length := by rwa [hall.length_eq]
  exact ⟨l[i], List.getElem_mem hbound, hall.get hbound hi⟩

/-- The first action that fails decides the error. -/
theorem mapM_eq_error_iff {l : List α} {e : ε} :
    l.mapM f = .error e ↔ ∃ before a after, l = before ++ a :: after ∧
      (∀ x ∈ before, ∃ b, f x = .ok b) ∧ f a = .error e := by
  constructor
  · intro h
    induction l with
    | nil => cases h
    | cons a rest ih =>
        cases ha : f a with
        | error e' =>
            rw [mapM_cons_error ha] at h
            cases h
            exact ⟨[], a, rest, rfl, by simp, ha⟩
        | ok b =>
            rw [mapM_cons_ok ha] at h
            cases hrest : rest.mapM f with
            | error e' =>
                rw [hrest] at h
                cases h
                obtain ⟨before, a', after, rfl, hbefore, ha'⟩ := ih hrest
                refine ⟨a :: before, a', after, rfl, ?_, ha'⟩
                exact List.forall_mem_cons.mpr ⟨⟨b, ha⟩, hbefore⟩
            | ok bs =>
                rw [hrest] at h
                cases h
  · rintro ⟨before, a, after, rfl, hbefore, ha⟩
    obtain ⟨results, hresults⟩ := exists_mapM_eq_ok_iff.mpr hbefore
    rw [mapM_append_of_ok hresults, mapM_cons_error ha]
    rfl

theorem exists_of_mapM_eq_error {l : List α} {e : ε} (h : l.mapM f = .error e) :
    ∃ a ∈ l, f a = .error e := by
  obtain ⟨before, a, after, rfl, -, ha⟩ := mapM_eq_error_iff.mp h
  exact ⟨a, by simp, ha⟩

/-- Elements on which the action succeeds do not change the error. -/
theorem filter_mapM_eq_error_iff {p : α → Bool} (hp : ∀ a, p a = false → ∃ b, f a = .ok b)
    {l : List α} {e : ε} : (l.filter p).mapM f = .error e ↔ l.mapM f = .error e := by
  induction l with
  | nil => rfl
  | cons a rest ih =>
      cases hkeep : p a with
      | true =>
          rw [List.filter_cons_of_pos hkeep]
          cases ha : f a with
          | error e' => rw [mapM_cons_error ha, mapM_cons_error ha]
          | ok b => rw [mapM_cons_ok ha, mapM_cons_ok ha, map_eq_error_iff, map_eq_error_iff, ih]
      | false =>
          obtain ⟨b, ha⟩ := hp a hkeep
          rw [List.filter_cons_of_neg (by simp [hkeep]), mapM_cons_ok ha, map_eq_error_iff, ih]

/-- What is made of every result may be made on the way. -/
theorem map_mapM {α' γ : Type} {f' : α' → Except ε γ} {g : β → γ} {h : α → α'}
    (hcommute : ∀ a, (f a).map g = f' (h a)) (l : List α) :
    (l.mapM f).map (List.map g) = (l.map h).mapM f' := by
  induction l with
  | nil => rfl
  | cons a rest ih =>
      rw [List.map_cons]
      cases ha : f a with
      | error e =>
          have ha' : f' (h a) = .error e := by rw [← hcommute, ha]; rfl
          rw [mapM_cons_error ha, mapM_cons_error ha']
          rfl
      | ok b =>
          have ha' : f' (h a) = .ok (g b) := by rw [← hcommute, ha]; rfl
          rw [mapM_cons_ok ha, mapM_cons_ok ha', ← ih]
          cases rest.mapM f <;> rfl

/-- Actions on elements that match come to the same, as far as `g` shows it. -/
theorem map_mapM_congr {α' γ : Type} {f' : α' → Except ε β} {g : β → γ} {l : List α} {l' : List α'}
    (h : List.Forall₂ (fun a a' => (f a).map g = (f' a').map g) l l') :
    (l.mapM f).map (List.map g) = (l'.mapM f').map (List.map g) := by
  have hshown : l.map (fun a => (f a).map g) = l'.map (fun a => (f' a).map g) := by
    rwa [← List.forall₂_eq_eq_eq, List.forall₂_map_left_iff, List.forall₂_map_right_iff]
  have hleft : ∀ a, (f a).map g = id ((f a).map g) := fun _ => rfl
  have hright : ∀ a, (f' a).map g = id ((f' a).map g) := fun _ => rfl
  rw [map_mapM hleft, map_mapM hright, hshown]

end MapM

/-! ### Meanings of lexemes -/

theorem Numeral.ofLexeme_text {numeral : Numeral} (hrange : Word.InRange numeral.value)
    (hlength : numeral.digits.length ≤ Literal.digitLimit) :
    Meaning.ofLexeme numeral.text = .ok (.operand numeral.value) := by
  rw [Meaning.ofLexeme, Numeral.read_text hrange hlength]

theorem Numeral.unbroken_text (numeral : Numeral) : Unbroken numeral.text :=
  fun _ hc => Numeral.isBlank_of_mem_text hc

theorem Operator.ofLexeme_symbol (op : Operator) :
    Meaning.ofLexeme [op.symbol] = .ok (.operator op) := by
  have hread : Literal.read [op.symbol] = .ok none := by
    cases op <;> rfl
  rw [Meaning.ofLexeme, hread, Operator.ofLexeme?_symbol]

theorem Operator.isBlank_symbol (op : Operator) : isBlank op.symbol = false := by
  cases op <;> decide

theorem eq_symbol_of_ofLexeme {lexeme : Text} {op : Operator}
    (h : Meaning.ofLexeme lexeme = .ok (.operator op)) : lexeme = [op.symbol] := by
  unfold Meaning.ofLexeme at h
  split at h
  · cases h
  · cases h
  · split at h
    · next hop =>
        cases h
        exact Operator.eq_symbol_of_ofLexeme? hop
    · cases h

theorem ofLexeme_eq_error_iff {lexeme : Text} {overlong : Overlong} :
    Meaning.ofLexeme lexeme = .error overlong ↔ Literal.read lexeme = .error overlong := by
  unfold Meaning.ofLexeme
  cases Literal.read lexeme with
  | error overlong' => simp
  | ok number =>
      cases number with
      | some value => simp
      | none => cases Operator.ofLexeme? lexeme <;> simp

theorem ofLexeme_eq_operand_iff {lexeme : Text} {value : Int} :
    Meaning.ofLexeme lexeme = .ok (.operand value) ↔ Literal.read lexeme = .ok (some value) := by
  unfold Meaning.ofLexeme
  split
  · next hread => simp [hread]
  · next hread => simp [hread]
  · next hread =>
      rw [hread]
      split <;> simp

theorem exists_ofLexeme_eq_ok_iff {lexeme : Text} :
    (∃ meaning, Meaning.ofLexeme lexeme = .ok meaning) ↔ Literal.isOverlong lexeme = false := by
  constructor
  · intro h
    obtain ⟨meaning, hmeaning⟩ := h
    rw [Bool.eq_false_iff]
    intro hoverlong
    have hread : Literal.read lexeme = .error (.literal (Literal.unsigned lexeme).length) :=
      Literal.read_eq_error_iff.mpr ⟨hoverlong, rfl⟩
    rw [ofLexeme_eq_error_iff.mpr hread] at hmeaning
    cases hmeaning
  · intro hoverlong
    cases hmeaning : Meaning.ofLexeme lexeme with
    | ok meaning => exact ⟨meaning, rfl⟩
    | error overlong =>
        have htrue := (Literal.read_eq_error_iff.mp (ofLexeme_eq_error_iff.mp hmeaning)).1
        rw [hoverlong] at htrue
        cases htrue

theorem isOverlong_iff {lexeme : Text} :
    Literal.isOverlong lexeme = true ↔
      ∃ numeral : Numeral, numeral.IsOverlong ∧ numeral.text = lexeme := by
  constructor
  · intro h
    have hliteral : Literal.isLiteral lexeme = true := by
      simp only [Literal.isOverlong, Bool.and_eq_true] at h
      exact h.1.1
    obtain ⟨numeral, rfl⟩ := Numeral.isLiteral_iff.mp hliteral
    exact ⟨numeral, (Numeral.isOverlong_text numeral).mp h, rfl⟩
  · rintro ⟨numeral, hoverlong, rfl⟩
    exact (Numeral.isOverlong_text numeral).mpr hoverlong

theorem isOverlong_eq_false_of_length_le {lexeme : Text}
    (h : lexeme.length ≤ Literal.digitLimit) : Literal.isOverlong lexeme = false := by
  rw [Bool.eq_false_iff, Ne, isOverlong_iff]
  rintro ⟨numeral, hoverlong, rfl⟩
  exact absurd hoverlong.lt_length_text (Nat.not_lt.mpr h)

/-! ### Tokens of pieces -/

/-- The token of a piece with a given meaning. -/
def Piece.token (piece : Piece) (meaning : Meaning) : Token := ⟨piece.text, piece.start, meaning⟩

theorem ofPiece_eq (piece : Piece) :
    Token.ofPiece piece = (Meaning.ofLexeme piece.text).map piece.token := rfl

/-- Invert a token: its lexeme has a meaning, and the token says which. -/
theorem classify_eq_ok_iff {lexeme : Text} {start : Int} {token : Token} :
    Token.classify lexeme start = .ok token ↔
      ∃ meaning, Meaning.ofLexeme lexeme = .ok meaning ∧ token = ⟨lexeme, start, meaning⟩ := by
  unfold Token.classify
  cases Meaning.ofLexeme lexeme <;> simp [Except.map, eq_comm]

theorem ofPiece_eq_error_iff {piece : Piece} {overlong : Overlong} :
    Token.ofPiece piece = .error overlong ↔ Literal.read piece.text = .error overlong := by
  rw [ofPiece_eq, ← ofLexeme_eq_error_iff]
  cases Meaning.ofLexeme piece.text <;> simp [Except.map]

theorem exists_ofPiece_eq_ok_iff {piece : Piece} :
    (∃ token, Token.ofPiece piece = .ok token) ↔ Literal.isOverlong piece.text = false := by
  rw [ofPiece_eq, ← exists_ofLexeme_eq_ok_iff]
  cases Meaning.ofLexeme piece.text <;> simp [Except.map]

/-- Meanings are found apart from positions. -/
theorem mapM_ofPiece (pieces : List Piece) :
    pieces.mapM Token.ofPiece =
      ((pieces.map Piece.text).mapM Meaning.ofLexeme).map (List.zipWith Piece.token pieces) := by
  induction pieces with
  | nil => rfl
  | cons piece rest ih =>
      rw [List.map_cons]
      cases hmeaning : Meaning.ofLexeme piece.text with
      | error overlong =>
          have htoken : Token.ofPiece piece = .error overlong := by
            rw [ofPiece_eq, hmeaning]
            rfl
          rw [mapM_cons_error htoken, mapM_cons_error hmeaning]
          rfl
      | ok meaning =>
          have htoken : Token.ofPiece piece = .ok (piece.token meaning) := by
            rw [ofPiece_eq, hmeaning]
            rfl
          rw [mapM_cons_ok htoken, mapM_cons_ok hmeaning, ih]
          cases (rest.map Piece.text).mapM Meaning.ofLexeme <;> rfl

theorem map_meaning_zipWith_token {pieces : List Piece} {meanings : List Meaning}
    (h : pieces.length = meanings.length) :
    (List.zipWith Piece.token pieces meanings).map Token.meaning = meanings := by
  induction pieces generalizing meanings with
  | nil => exact (List.length_eq_zero_iff.mp h.symm).symm
  | cons piece rest ih =>
      cases meanings with
      | nil => simp at h
      | cons meaning meanings =>
          rw [List.zipWith_cons_cons, List.map_cons, ih (by simpa using h)]
          rfl

theorem getElem?_zipWith_token {pieces : List Piece} {meanings : List Meaning} {k : Nat}
    {token : Token} (h : (List.zipWith Piece.token pieces meanings)[k]? = some token) :
    ∃ piece meaning, pieces[k]? = some piece ∧ meanings[k]? = some meaning ∧
      piece.token meaning = token :=
  List.getElem?_zipWith_eq_some.mp h

/-! ### Which pieces become tokens -/

theorem pieces_of_hasBlank {expression : Text} (h : expression.hasBlank = true) :
    pieces expression = placed 0 (expression.splitOnP isBlank) := by
  simp only [pieces, Layout.of, h, if_true, Layout.pieces, spacedPieces]

theorem pieces_of_not_hasBlank {expression : Text} (h : expression.hasBlank = false) :
    pieces expression = densePieces expression := by
  simp [pieces, Layout.of, h, Layout.pieces]

theorem pieces_of_spaced {lexemes : List Text} {expression : Text}
    (h : Spaced lexemes expression) (hunbroken : ∀ lexeme ∈ lexemes, Unbroken lexeme)
    (hlength : 2 ≤ lexemes.length) : pieces expression = placed 0 lexemes := by
  rw [pieces_of_hasBlank (h.hasBlank hlength), h.splitOnP_eq hunbroken]

theorem filter_eq_self_of_ne_nil {pieces : List Piece}
    (h : ∀ piece ∈ pieces, piece.text ≠ []) :
    (pieces.filter fun piece => !piece.text.isEmpty) = pieces :=
  List.filter_eq_self.mpr fun piece hmem => by simp [h piece hmem]

theorem keptPieces_of_ne_nil {expression : Text}
    (h : ∀ piece ∈ pieces expression, piece.text ≠ []) (skipEmpty : Bool) :
    keptPieces expression skipEmpty = pieces expression := by
  unfold keptPieces
  split
  · exact filter_eq_self_of_ne_nil h
  · rfl

/-- An expression has tokens unless one of its pieces is an overlong literal. -/
theorem exists_tokenize_eq_ok_iff {expression : Text} {skipEmpty : Bool} :
    (∃ tokens, tokenize expression skipEmpty = .ok tokens) ↔
      ∀ piece ∈ keptPieces expression skipEmpty, Literal.isOverlong piece.text = false := by
  rw [tokenize, exists_mapM_eq_ok_iff]
  simp only [exists_ofPiece_eq_ok_iff]

theorem exists_of_tokenize_eq_error {expression : Text} {skipEmpty : Bool} {overlong : Overlong}
    (h : tokenize expression skipEmpty = .error overlong) :
    ∃ piece ∈ keptPieces expression skipEmpty, Literal.read piece.text = .error overlong := by
  obtain ⟨piece, hmem, hpiece⟩ := exists_of_mapM_eq_error h
  exact ⟨piece, hmem, ofPiece_eq_error_iff.mp hpiece⟩

/-- A token of an expression has the meaning of its lexeme. -/
theorem ofLexeme_of_mem_tokenize {expression : Text} {skipEmpty : Bool} {tokens : List Token}
    {token : Token} (h : tokenize expression skipEmpty = .ok tokens) (hmem : token ∈ tokens) :
    Meaning.ofLexeme token.lexeme = .ok token.meaning := by
  obtain ⟨piece, -, hpiece⟩ := exists_of_mem_mapM h hmem
  obtain ⟨meaning, hmeaning, rfl⟩ := classify_eq_ok_iff.mp hpiece
  exact hmeaning

/-- The tokens of lexemes with white space between them: each lexeme with its
meaning, at its place. -/
theorem tokenize_of_spaced {lexemes : List Text} {expression : Text} {meanings : List Meaning}
    (h : Spaced lexemes expression)
    (hlexemes : ∀ lexeme ∈ lexemes, Unbroken lexeme ∧ lexeme ≠ []) (hlength : 2 ≤ lexemes.length)
    (hmeanings : lexemes.mapM Meaning.ofLexeme = .ok meanings) (skipEmpty : Bool) :
    tokenize expression skipEmpty =
      .ok (List.zipWith Piece.token (placed 0 lexemes) meanings) := by
  have hpieces : pieces expression = placed 0 lexemes :=
    pieces_of_spaced h (fun lexeme hmem => (hlexemes lexeme hmem).1) hlength
  have hkept : keptPieces expression skipEmpty = placed 0 lexemes := by
    rw [keptPieces_of_ne_nil _ skipEmpty, hpieces]
    intro piece hmem
    rw [hpieces] at hmem
    have htext : piece.text ∈ lexemes := by
      rw [← map_text_placed 0 lexemes]
      exact List.mem_map_of_mem hmem
    exact (hlexemes _ htext).2
  rw [tokenize, hkept, mapM_ofPiece, map_text_placed, hmeanings]
  rfl

end ReversePolish
