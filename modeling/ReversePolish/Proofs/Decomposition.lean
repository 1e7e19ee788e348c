import ReversePolish.Proofs.Overlong

/-!
# ReversePolish.Proofs.Decomposition

**Cutting at white space loses nothing**, and there is one way to do it.

`Decomposes` says by indices alone what it is to cut a text at its white space: every
piece is what stands in the text at its place, one white-space character stands between
each two, and the pieces reach from one end of the text to the other. The pieces of a
text are the only ones that do all this (`decomposes_iff`), and tokens carry their
lexemes and their places (`tokenize_carries_decomposition`).

Design points:

* The pieces may start anywhere in the text, so that what stands behind the first of
  them is a decomposition again (`decomposes_cons_iff`).
* Pieces that decompose a text are spaced in it, in the sense of `Spaced`, which knows
  the text but no index. That there are no others is then the uniqueness of cutting.
-/

namespace ReversePolish

open Text

/-- The index behind the last code point of a piece. -/
def Piece.stop (piece : Piece) : Nat := piece.start + piece.text.length

/-- What it is for pieces to be an expression cut at its white space, from the index
`start` on. -/
structure Decomposes (expression : Text) (start : Nat) (pieces : List Piece) : Prop where
  /-- No piece holds white space. -/
  unbroken : ∀ piece ∈ pieces, Unbroken piece.text
  first : pieces.head?.map Piece.start = some start
  /-- One code point is left out between each two pieces. -/
  next : pieces.IsChain fun piece next => next.start = piece.stop + 1
  /-- What is left out is white space. -/
  blank : pieces.IsChain fun piece _ => ∃ c ∈ expression[piece.stop]?, isBlank c = true
  /-- Every piece is what stands at its place. -/
  slice : ∀ piece ∈ pieces, Text.slice piece.start piece.stop expression = piece.text
  last : pieces.getLast?.map Piece.stop = some expression.length

variable {expression : Text} {start : Nat} {piece : Piece} {rest : List Piece}

/-! ### One piece at a time -/

theorem decomposes_singleton_iff :
    Decomposes expression start [piece] ↔ piece.start = start ∧ Unbroken piece.text ∧
      Text.slice piece.start piece.stop expression = piece.text ∧
      piece.stop = expression.length := by
  constructor
  · intro h
    exact ⟨Option.some.inj h.first, h.unbroken piece List.mem_cons_self,
      h.slice piece List.mem_cons_self, Option.some.inj h.last⟩
  · intro ⟨hstart, hunbroken, hslice, hstop⟩
    exact ⟨List.forall_mem_singleton.mpr hunbroken, congrArg some hstart, .singleton piece,
      .singleton piece, List.forall_mem_singleton.mpr hslice, congrArg some hstop⟩

theorem decomposes_cons_iff (hne : rest ≠ []) :
    Decomposes expression start (piece :: rest) ↔ piece.start = start ∧ Unbroken piece.text ∧
      Text.slice piece.start piece.stop expression = piece.text ∧
      (∃ c ∈ expression[piece.stop]?, isBlank c = true) ∧
      Decomposes expression (piece.stop + 1) rest := by
  obtain ⟨next, rest, rfl⟩ := List.exists_cons_of_ne_nil hne
  constructor
  · intro h
    obtain ⟨hunbroken, hunbroken'⟩ := List.forall_mem_cons.mp h.unbroken
    obtain ⟨hslice, hslice'⟩ := List.forall_mem_cons.mp h.slice
    obtain ⟨hnext, hnext'⟩ := List.isChain_cons_cons.mp h.next
    obtain ⟨hblank, hblank'⟩ := List.isChain_cons_cons.mp h.blank
    have hlast := h.last
    rw [List.getLast?_cons_cons] at hlast
    exact ⟨Option.some.inj h.first, hunbroken, hslice, hblank,
      ⟨hunbroken', congrArg some hnext, hnext', hblank', hslice', hlast⟩⟩
  · intro ⟨hstart, hunbroken, hslice, hblank, hrest⟩
    refine ⟨List.forall_mem_cons.mpr ⟨hunbroken, hrest.unbroken⟩, congrArg some hstart, ?_, ?_,
      List.forall_mem_cons.mpr ⟨hslice, hrest.slice⟩, ?_⟩
    · exact List.isChain_cons_cons.mpr ⟨Option.some.inj hrest.first, hrest.next⟩
    · exact List.isChain_cons_cons.mpr ⟨hblank, hrest.blank⟩
    · rw [List.getLast?_cons_cons]
      exact hrest.last

/-- Where a piece stands, the text goes on with the piece. -/
theorem drop_start_of_slice (h : Text.slice piece.start piece.stop expression = piece.text) :
    expression.drop piece.start = piece.text ++ expression.drop piece.stop := by
  have hlength : piece.stop - piece.start = piece.text.length := by
    unfold Piece.stop
    omega
  rw [slice_natCast, hlength] at h
  calc expression.drop piece.start
      = (expression.drop piece.start).take piece.text.length ++
          (expression.drop piece.start).drop piece.text.length :=
        (List.take_append_drop _ _).symm
    _ = piece.text ++ expression.drop piece.stop := by rw [h, List.drop_drop, Piece.stop]

theorem slice_append_append (before text after : Text) :
    Text.slice before.length (before.length + text.length : Nat) (before ++ text ++ after) =
      text := by
  rw [slice_natCast, List.append_assoc, List.drop_left, Nat.add_sub_cancel_left, List.take_left]

/-! ### Decomposed and spaced -/

/-- The pieces of a decomposition are spaced in the text, and their places follow from
their lengths. -/
theorem Decomposes.spaced {pieces : List Piece} (h : Decomposes expression start pieces) :
    Spaced (pieces.map Piece.text) (expression.drop start) ∧
      pieces = placed start (pieces.map Piece.text) := by
  induction pieces generalizing start with
  | nil => cases h.first
  | cons piece rest ih =>
      by_cases hne : rest = []
      · subst hne
        obtain ⟨rfl, -, hslice, hstop⟩ := decomposes_singleton_iff.mp h
        have hdrop := drop_start_of_slice hslice
        rw [hstop, List.drop_length, List.append_nil] at hdrop
        rw [hdrop]
        exact ⟨.single piece.text, rfl⟩
      · obtain ⟨rfl, -, hslice, ⟨c, hc, hblank⟩, hrest⟩ := (decomposes_cons_iff hne).mp h
        obtain ⟨hspaced, hplaced⟩ := ih hrest
        obtain ⟨hbound, hget⟩ := List.getElem?_eq_some_iff.mp hc
        rw [drop_start_of_slice hslice, List.drop_eq_getElem_cons hbound, hget]
        refine ⟨.cons piece.text hblank hspaced, ?_⟩
        rw [List.map_cons, placed_cons]
        exact congrArg (piece :: ·) hplaced

/-- Lexemes that are spaced in a text decompose it at their places, whatever stands
before them. -/
theorem Spaced.decomposes {lexemes : List Text} {text : Text} (h : Spaced lexemes text)
    (hunbroken : ∀ lexeme ∈ lexemes, Unbroken lexeme) (before : Text) :
    Decomposes (before ++ text) before.length (placed before.length lexemes) := by
  induction h generalizing before with
  | single lexeme =>
      refine decomposes_singleton_iff.mpr ⟨rfl, hunbroken lexeme List.mem_cons_self, ?_, ?_⟩
      · have hslice := slice_append_append before lexeme []
        rwa [List.append_nil] at hslice
      · rw [List.length_append]
        rfl
  | @cons lexeme blank rest text hblank hrest ih =>
      obtain ⟨hlexeme, hlexemes⟩ := List.forall_mem_cons.mp hunbroken
      have hne : placed (before.length + lexeme.length + 1) rest ≠ [] := by
        cases hrest <;> exact List.cons_ne_nil _ _
      rw [placed_cons, decomposes_cons_iff hne]
      refine ⟨rfl, hlexeme, ?_, ⟨blank, ?_, hblank⟩, ?_⟩
      · rw [← List.append_assoc]
        exact slice_append_append before lexeme (blank :: text)
      · have hstop : (⟨lexeme, before.length⟩ : Piece).stop = (before ++ lexeme).length :=
          List.length_append.symm
        rw [hstop, ← List.append_assoc, List.getElem?_append_right (Nat.le_refl _), Nat.sub_self]
        rfl
      · have htail := ih hlexemes (before ++ lexeme ++ [blank])
        have hlength : (before ++ lexeme ++ [blank]).length =
            before.length + lexeme.length + 1 := by
          rw [List.length_append, List.length_append, List.length_singleton]
        rw [hlength, List.append_assoc, List.append_assoc, List.singleton_append] at htail
        exact htail

/-- **There is one way to cut a text at its white space.** -/
theorem decomposes_iff {pieces : List Piece} :
    Decomposes expression 0 pieces ↔ pieces = spacedPieces expression := by
  constructor
  · intro h
    obtain ⟨hspaced, hplaced⟩ := h.spaced
    have hunbroken : ∀ lexeme ∈ pieces.map Piece.text, Unbroken lexeme :=
      List.forall_mem_map.mpr h.unbroken
    rw [List.drop_zero] at hspaced
    rw [spacedPieces, hspaced.splitOnP_eq hunbroken]
    exact hplaced
  · intro h
    subst h
    exact (Spaced.splitOnP expression).decomposes (fun _ => unbroken_of_mem_splitOnP) []

/-! ### Nothing is lost -/

/-- Lexemes with one of the given characters behind each of them but the last. -/
def interleave : List Text → Text → Text
  | lexeme :: rest, c :: separators => lexeme ++ c :: interleave rest separators
  | lexemes, _ => lexemes.flatten

section

variable {lexemes : List Text} {text : Text}

theorem Spaced.length_eq (h : Spaced lexemes text)
    (hunbroken : ∀ lexeme ∈ lexemes, Unbroken lexeme) :
    lexemes.length = text.countP isBlank + 1 := by
  induction h with
  | single lexeme =>
      have hcount : lexeme.countP isBlank = 0 :=
        List.countP_eq_zero.mpr fun c hc => by simp [hunbroken lexeme List.mem_cons_self c hc]
      rw [hcount, List.length_singleton]
  | @cons lexeme blank rest text hblank hrest ih =>
      obtain ⟨hlexeme, hlexemes⟩ := List.forall_mem_cons.mp hunbroken
      have hcount : lexeme.countP isBlank = 0 :=
        List.countP_eq_zero.mpr fun c hc => by simp [hlexeme c hc]
      rw [List.length_cons, ih hlexemes, List.countP_append, List.countP_cons, hcount, hblank,
        if_pos rfl, Nat.zero_add]

theorem Spaced.interleave_eq (h : Spaced lexemes text)
    (hunbroken : ∀ lexeme ∈ lexemes, Unbroken lexeme) :
    interleave lexemes (text.filter isBlank) = text := by
  induction h with
  | single lexeme =>
      have hfilter : lexeme.filter isBlank = [] :=
        List.filter_eq_nil_iff.mpr fun c hc => by simp [hunbroken lexeme List.mem_cons_self c hc]
      rw [hfilter]
      simp [interleave]
  | @cons lexeme blank rest text hblank hrest ih =>
      obtain ⟨hlexeme, hlexemes⟩ := List.forall_mem_cons.mp hunbroken
      have hfilter : lexeme.filter isBlank = [] :=
        List.filter_eq_nil_iff.mpr fun c hc => by simp [hlexeme c hc]
      rw [List.filter_append, hfilter, List.nil_append, List.filter_cons_of_pos hblank, interleave,
        ih hlexemes]

end

/-! ### Where a piece stands -/

/-- Whether a piece is what stands at its place in an expression. An empty piece stands
before white space or at the end. -/
structure Piece.Stands (piece : Piece) (expression : Text) : Prop where
  slice : Text.slice piece.start piece.stop expression = piece.text
  stop_le : piece.stop ≤ expression.length
  blank : piece.text = [] → StartsBlank (expression.drop piece.start)

/-- A piece of a decomposition reaches to white space or to the end. -/
theorem Decomposes.startsBlank {pieces : List Piece} (h : Decomposes expression start pieces)
    (hmem : piece ∈ pieces) :
    piece.stop ≤ expression.length ∧ StartsBlank (expression.drop piece.stop) := by
  induction pieces generalizing start with
  | nil => cases hmem
  | cons first rest ih =>
      by_cases hne : rest = []
      · subst hne
        obtain rfl := List.mem_singleton.mp hmem
        obtain ⟨-, -, -, hstop⟩ := decomposes_singleton_iff.mp h
        rw [hstop, List.drop_length]
        exact ⟨Nat.le_refl _, Or.inl rfl⟩
      · obtain ⟨-, -, -, ⟨c, hc, hblank⟩, hrest⟩ := (decomposes_cons_iff hne).mp h
        rcases List.mem_cons.mp hmem with heq | hmem
        · subst heq
          obtain ⟨hbound, hget⟩ := List.getElem?_eq_some_iff.mp hc
          rw [List.drop_eq_getElem_cons hbound, hget]
          exact ⟨Nat.le_of_lt hbound, Or.inr ⟨c, _, hblank, rfl⟩⟩
        · exact ih hrest hmem

theorem Decomposes.stands {pieces : List Piece} (h : Decomposes expression start pieces)
    (hmem : piece ∈ pieces) : piece.Stands expression := by
  obtain ⟨hstop, hblank⟩ := h.startsBlank hmem
  refine ⟨h.slice piece hmem, hstop, ?_⟩
  intro hempty
  have hstart : piece.stop = piece.start := by
    rw [Piece.stop, hempty]
    rfl
  rwa [← hstart]

theorem getElem?_densePieces (expression : Text) (i : Nat) :
    (densePieces expression)[i]? = expression[i]?.map fun c => Piece.mk [c] i := by
  rw [densePieces, List.getElem?_map, List.getElem?_zipIdx, Option.map_map, Nat.zero_add]
  rfl

theorem stands_of_mem_densePieces (h : piece ∈ densePieces expression) :
    piece.Stands expression := by
  obtain ⟨i, hi⟩ := List.mem_iff_getElem?.mp h
  rw [getElem?_densePieces] at hi
  obtain ⟨c, hc, rfl⟩ := Option.map_eq_some_iff.mp hi
  obtain ⟨hbound, hget⟩ := List.getElem?_eq_some_iff.mp hc
  have hlength : i + 1 - i = 1 := by omega
  refine ⟨?_, hbound, fun hempty => absurd hempty (List.cons_ne_nil c [])⟩
  rw [show (Piece.mk [c] i).stop = i + 1 from rfl, slice_natCast, hlength,
    List.drop_eq_getElem_cons hbound, hget]
  rfl

/-- Every piece of an expression stands in it, in either layout. -/
theorem stands_of_mem_pieces (h : piece ∈ pieces expression) : piece.Stands expression := by
  cases hblank : expression.hasBlank with
  | true => exact (decomposes_iff.mpr (pieces_of_hasBlank hblank)).stands h
  | false =>
      rw [pieces_of_not_hasBlank hblank] at h
      exact stands_of_mem_densePieces h

/-! ### What tokens carry -/

/-- Whether a token has the lexeme and the place of a piece. -/
def Token.Carries (token : Token) (piece : Piece) : Prop :=
  token.lexeme = piece.text ∧ token.start = piece.start

theorem carries_of_ofPiece {token : Token} (h : Token.ofPiece piece = .ok token) :
    token.Carries piece := by
  obtain ⟨meaning, -, rfl⟩ := classify_eq_ok_iff.mp h
  exact ⟨rfl, rfl⟩

theorem carries_of_tokenize {skipEmpty : Bool} {tokens : List Token}
    (h : tokenize expression skipEmpty = .ok tokens) :
    List.Forall₂ Token.Carries tokens (keptPieces expression skipEmpty) := by
  have hpieces : List.Forall₂ (fun piece token => Token.ofPiece piece = .ok token)
      (keptPieces expression skipEmpty) tokens := mapM_eq_ok_iff.mp h
  exact (hpieces.imp fun _ _ => carries_of_ofPiece).flip

/-- **Tokens carry the one decomposition of their expression.** The pieces between
white-space characters are the only decomposition of an expression; they are one more
than these characters, and with the characters between them they are the expression. If
an expression has tokens, and it has unless an overlong numeral is among its lexemes, then
they carry these pieces where there is white space, and otherwise the single characters
each at its index: all of them in order, or all but the empty ones. -/
theorem tokenize_carries_decomposition (expression : Text) :
    (∀ pieces, Decomposes expression 0 pieces ↔ pieces = spacedPieces expression) ∧
    (spacedPieces expression).length = expression.countP isBlank + 1 ∧
    interleave ((spacedPieces expression).map Piece.text) (expression.filter isBlank) =
      expression ∧
    ∀ skipEmpty,
      ((∃ tokens, tokenize expression skipEmpty = .ok tokens) ↔ ¬ HoldsOverlong expression) ∧
      ∀ tokens, tokenize expression skipEmpty = .ok tokens →
        ∃ pieces : List Piece,
          (expression.hasBlank = true → Decomposes expression 0 pieces) ∧
          (expression.hasBlank = false →
            ∀ i, pieces[i]? = expression[i]?.map fun c => Piece.mk [c] i) ∧
          List.Forall₂ Token.Carries tokens
            (if skipEmpty then pieces.filter fun piece => piece.text ≠ [] else pieces) := by
  have hspaced := Spaced.splitOnP expression
  have hunbroken : ∀ lexeme ∈ expression.splitOnP isBlank, Unbroken lexeme :=
    fun _ => unbroken_of_mem_splitOnP
  refine ⟨fun pieces => decomposes_iff, ?_, ?_, fun skipEmpty =>
    ⟨exists_tokens_iff_not_holdsOverlong, fun tokens htokens => ⟨pieces expression, ?_, ?_, ?_⟩⟩⟩
  · rw [spacedPieces, length_placed, hspaced.length_eq hunbroken]
  · rw [spacedPieces, map_text_placed, hspaced.interleave_eq hunbroken]
  · intro hblank
    exact decomposes_iff.mpr (pieces_of_hasBlank hblank)
  · intro hblank i
    rw [pieces_of_not_hasBlank hblank]
    exact getElem?_densePieces expression i
  · have hkept : keptPieces expression skipEmpty =
        if skipEmpty then (pieces expression).filter fun piece => piece.text ≠ []
        else pieces expression := by
      unfold keptPieces
      split
      · exact List.filter_congr fun piece _ => by cases piece.text <;> rfl
      · rfl
    rw [← hkept]
    exact carries_of_tokenize htokens

/-- A sum with an empty piece in it, which the tokens leave out. -/
theorem carried_by_sum_with_gap :
    let expression : Text := ['1', ' ', ' ', '2', '\t', '+']
    Decomposes expression 0 [⟨['1'], 0⟩, ⟨[], 2⟩, ⟨['2'], 3⟩, ⟨['+'], 5⟩] ∧
    ∃ tokens, tokenize expression true = .ok tokens ∧
      List.Forall₂ Token.Carries tokens [⟨['1'], 0⟩, ⟨['2'], 3⟩, ⟨['+'], 5⟩] := by
  intro expression
  obtain ⟨hunique, -, -, htokens⟩ := tokenize_carries_decomposition expression
  have hpieces : [⟨['1'], 0⟩, ⟨[], 2⟩, ⟨['2'], 3⟩, ⟨['+'], 5⟩] = spacedPieces expression := by decide
  have hsum : tokenize expression true =
      .ok [⟨['1'], 0, .operand 1⟩, ⟨['2'], 3, .operand 2⟩, ⟨['+'], 5, .operator .add⟩] := by
    decide
  obtain ⟨pieces, hblank, -, hcarries⟩ := (htokens true).2 _ hsum
  obtain rfl := (hunique pieces).mp (hblank rfl)
  refine ⟨(hunique _).mpr hpieces, _, hsum, ?_⟩
  rw [← hpieces] at hcarries
  exact hcarries

end ReversePolish
