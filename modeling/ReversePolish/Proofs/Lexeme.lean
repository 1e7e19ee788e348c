import ReversePolish.Layout

/-!
# ReversePolish.Proofs.Lexeme

**Lexemes in a text**: white space between them, and where each of them starts.

`Spaced lexemes text` is the reverse of cutting: the text is the lexemes with one
white-space character between each two. Every text is spaced by the pieces that it
is cut into (`Spaced.splitOnP`), and lexemes that hold no white space themselves
are cut apart again (`Spaced.splitOnP_eq`). A single lexeme is found by what stands
around it (`mem_splitOnP_iff_standsIn`).
-/

namespace ReversePolish

open Text

/-- The lexemes with one white-space character between each two. -/
inductive Spaced : List Text → Text → Prop
  | single (lexeme : Text) : Spaced [lexeme] lexeme
  | cons (lexeme : Text) {blank : Char} {rest : List Text} {text : Text} :
      isBlank blank = true → Spaced rest text → Spaced (lexeme :: rest) (lexeme ++ blank :: text)

/-- Whether a text holds no white space. -/
def Unbroken (text : Text) : Prop := ∀ c ∈ text, isBlank c = false

theorem splitOnP_unbroken {text : Text} (h : Unbroken text) : text.splitOnP isBlank = [text] :=
  List.splitOnP_eq_singleton h

/-- No piece holds white space. -/
theorem unbroken_of_mem_splitOnP {text piece : Text} (h : piece ∈ text.splitOnP isBlank) :
    Unbroken piece := by
  induction text generalizing piece with
  | nil =>
      obtain rfl : piece = [] := by simpa using h
      exact fun _ hc => absurd hc List.not_mem_nil
  | cons c rest ih =>
      rw [List.splitOnP_cons_eq_if_modifyHead] at h
      split at h
      · rcases List.mem_cons.mp h with rfl | h
        · exact fun _ hc => absurd hc List.not_mem_nil
        · exact ih h
      · next hblank =>
          -- The character joins the first piece and leaves the others alone.
          obtain ⟨first, others, hsplit⟩ :=
            List.exists_cons_of_ne_nil (List.splitOnP_ne_nil isBlank rest)
          rw [hsplit] at h ih
          rcases List.mem_cons.mp h with rfl | h
          · exact List.forall_mem_cons.mpr ⟨by simpa using hblank, ih List.mem_cons_self⟩
          · exact ih (List.mem_cons_of_mem first h)

namespace Spaced

/-- Every text is spaced by the pieces that it is cut into. -/
theorem splitOnP (text : Text) : Spaced (text.splitOnP isBlank) text := by
  induction text with
  | nil => exact .single []
  | cons c rest ih =>
      rw [List.splitOnP_cons_eq_if_modifyHead]
      split
      · next hblank => exact .cons [] hblank ih
      · -- The character joins the first piece, however the rest is spaced.
        generalize rest.splitOnP isBlank = pieces at ih
        cases ih with
        | single => exact .single (c :: rest)
        | cons lexeme hblank hrest => exact .cons (c :: lexeme) hblank hrest

theorem splitOnP_eq {lexemes : List Text} {text : Text} (h : Spaced lexemes text)
    (hunbroken : ∀ lexeme ∈ lexemes, Unbroken lexeme) : text.splitOnP isBlank = lexemes := by
  induction h with
  | single lexeme => exact splitOnP_unbroken (hunbroken lexeme (by simp))
  | cons lexeme hblank hrest ih =>
      rw [List.splitOnP_append_cons_of_forall_mem (hunbroken lexeme (by simp)) _ hblank,
        ih fun other hmem => hunbroken other (List.mem_cons_of_mem _ hmem)]

theorem hasBlank {lexemes : List Text} {text : Text} (h : Spaced lexemes text)
    (hlength : 2 ≤ lexemes.length) : text.hasBlank = true := by
  cases h with
  | single lexeme => simp at hlength
  | cons lexeme hblank hrest => simp [hblank]

/-- Nothing stands in the lexemes that does not stand in the text. -/
theorem flatten_sublist {lexemes : List Text} {text : Text} (h : Spaced lexemes text) :
    lexemes.flatten.Sublist text := by
  induction h with
  | single lexeme => simp
  | cons lexeme _ _ ih => exact (List.Sublist.refl lexeme).append (ih.cons _)

end Spaced

/-! ### Finding a lexeme by what stands around it -/

/-- Whether a text is empty or starts with white space. -/
def StartsBlank (text : Text) : Prop := text = [] ∨ ∃ blank rest, isBlank blank = true ∧
  text = blank :: rest

/-- Whether a text is empty or ends with white space. -/
def EndsBlank (text : Text) : Prop := text = [] ∨ ∃ rest blank, isBlank blank = true ∧
  text = rest ++ [blank]

/-- Whether a lexeme stands somewhere in a text, with white space or an end of the
text on either side. -/
def StandsIn (lexeme text : Text) : Prop :=
  ∃ before after, text = before ++ lexeme ++ after ∧ EndsBlank before ∧ StartsBlank after

theorem StandsIn.length_le {lexeme text : Text} (h : StandsIn lexeme text) :
    lexeme.length ≤ text.length := by
  obtain ⟨before, after, rfl, -, -⟩ := h
  rw [List.length_append, List.length_append]
  omega

theorem EndsBlank.append {text : Text} (h : EndsBlank text) {start : Text}
    (hstart : EndsBlank start) : EndsBlank (start ++ text) := by
  rcases h with rfl | ⟨rest, blank, hblank, rfl⟩
  · rwa [List.append_nil]
  · exact Or.inr ⟨start ++ rest, blank, hblank, by rw [List.append_assoc]⟩

theorem mem_splitOnP_append {lexeme after : Text} (h : Unbroken lexeme)
    (hafter : StartsBlank after) : lexeme ∈ (lexeme ++ after).splitOnP isBlank := by
  rcases hafter with rfl | ⟨blank, rest, hblank, rfl⟩
  · rw [List.append_nil, splitOnP_unbroken h]
    exact List.mem_singleton_self lexeme
  · rw [List.splitOnP_append_cons_of_forall_mem h blank hblank]
    exact List.mem_cons_self

theorem Spaced.standsIn {lexemes : List Text} {text lexeme : Text} (h : Spaced lexemes text)
    (hmem : lexeme ∈ lexemes) : StandsIn lexeme text := by
  induction h with
  | single other =>
      obtain rfl := List.mem_singleton.mp hmem
      exact ⟨[], [], by simp, Or.inl rfl, Or.inl rfl⟩
  | @cons other blank rest text hblank hrest ih =>
      rcases List.mem_cons.mp hmem with rfl | hmem
      · exact ⟨[], _, rfl, Or.inl rfl, Or.inr ⟨_, _, hblank, rfl⟩⟩
      · obtain ⟨before, after, rfl, hbefore, hafter⟩ := ih hmem
        refine ⟨other ++ [blank] ++ before, after, by simp, hbefore.append ?_, hafter⟩
        exact Or.inr ⟨other, blank, hblank, rfl⟩

/-- A lexeme without white space is a piece of a text exactly where it stands
between white space or ends. -/
theorem mem_splitOnP_iff_standsIn {lexeme text : Text} (h : Unbroken lexeme) :
    lexeme ∈ text.splitOnP isBlank ↔ StandsIn lexeme text := by
  constructor
  · exact (Spaced.splitOnP text).standsIn
  · rintro ⟨before, after, rfl, hbefore, hafter⟩
    have hpiece := mem_splitOnP_append h hafter
    rcases hbefore with rfl | ⟨rest, blank, hblank, rfl⟩
    · exact hpiece
    · rw [List.append_assoc, List.append_assoc, List.singleton_append,
        List.splitOnP_append_cons _ _ hblank]
      exact List.mem_append_right _ hpiece

/-- What stands in a text that is put together at white space stands in one of its parts. -/
theorem standsIn_append_iff {lexeme : Text} (h : Unbroken lexeme) {blank : Char}
    (hblank : isBlank blank = true) (before after : Text) :
    StandsIn lexeme (before ++ blank :: after) ↔ StandsIn lexeme before ∨ StandsIn lexeme after := by
  rw [← mem_splitOnP_iff_standsIn h, ← mem_splitOnP_iff_standsIn h, ← mem_splitOnP_iff_standsIn h,
    List.splitOnP_append_cons before after hblank, List.mem_append]

/-! ### Texts put together at white space

Where a text ends with white space, what follows is cut on its own; where one starts
with white space, so is what stands before it. -/

theorem EndsBlank.exists_splitOnP {before : Text} (h : EndsBlank before) :
    ∃ lexemes, ∀ rest, (before ++ rest).splitOnP isBlank = lexemes ++ rest.splitOnP isBlank := by
  rcases h with rfl | ⟨start, blank, hblank, rfl⟩
  · exact ⟨[], fun rest => rfl⟩
  · refine ⟨start.splitOnP isBlank, fun rest => ?_⟩
    rw [List.append_assoc, List.singleton_append, List.splitOnP_append_cons _ _ hblank]

theorem StartsBlank.exists_splitOnP {after : Text} (h : StartsBlank after) :
    ∃ lexemes, ∀ start, (start ++ after).splitOnP isBlank = start.splitOnP isBlank ++ lexemes := by
  rcases h with rfl | ⟨blank, rest, hblank, rfl⟩
  · exact ⟨[], fun start => by rw [List.append_nil, List.append_nil]⟩
  · exact ⟨rest.splitOnP isBlank, fun start => List.splitOnP_append_cons start rest hblank⟩

theorem EndsBlank.hasBlank {before : Text} (h : EndsBlank before) (hne : before ≠ []) :
    before.hasBlank = true := by
  rcases h with rfl | ⟨start, blank, hblank, rfl⟩
  · exact absurd rfl hne
  · simp [hblank]

theorem StartsBlank.hasBlank {after : Text} (h : StartsBlank after) (hne : after ≠ []) :
    after.hasBlank = true := by
  rcases h with rfl | ⟨blank, rest, hblank, rfl⟩
  · exact absurd rfl hne
  · simp [hblank]

/-! ### Dense texts -/

theorem map_text_densePieces (text : Text) :
    (densePieces text).map Piece.text = text.map fun c => [c] := by
  have hfst : text.zipIdx.map Prod.fst = text := List.zipIdx_map_fst 0 text
  calc (densePieces text).map Piece.text
      = (text.zipIdx.map Prod.fst).map fun c => [c] := by
        rw [densePieces, List.map_map, List.map_map]
        rfl
    _ = text.map fun c => [c] := by rw [hfst]

/-! ### Positions -/

/-- The index at which the lexeme number `k` starts: each lexeme before it takes
its length and one character more. -/
def lexemeStart : List Text → Nat → Nat
  | lexeme :: rest, k + 1 => lexeme.length + (lexemeStart rest k + 1)
  | _, _ => 0

theorem length_placed (start : Nat) (lexemes : List Text) :
    (placed start lexemes).length = lexemes.length := by
  rw [← List.length_map Piece.text, map_text_placed]

/-- Lexemes that follow others are placed behind them. -/
theorem exists_placed_append (start : Nat) (first second : List Text) :
    ∃ next, placed start (first ++ second) = placed start first ++ placed next second := by
  induction first generalizing start with
  | nil => exact ⟨start, rfl⟩
  | cons lexeme rest ih =>
      obtain ⟨next, hnext⟩ := ih (start + lexeme.length + 1)
      refine ⟨next, ?_⟩
      rw [List.cons_append, placed_cons, placed_cons, hnext, List.cons_append]

theorem getElem?_placed (start : Nat) (lexemes : List Text) (k : Nat) :
    (placed start lexemes)[k]? =
      lexemes[k]?.map fun lexeme => ⟨lexeme, start + lexemeStart lexemes k⟩ := by
  induction lexemes generalizing start k with
  | nil => rfl
  | cons lexeme rest ih =>
      cases k with
      | zero => rfl
      | succ k =>
          rw [placed_cons, List.getElem?_cons_succ, List.getElem?_cons_succ, ih]
          have hstart : start + lexemeStart (lexeme :: rest) (k + 1) =
              start + lexeme.length + 1 + lexemeStart rest k := by
            rw [lexemeStart]
            omega
          rw [hstart]

/-- A lexeme stands in the text from its start on. -/
theorem Spaced.drop_lexemeStart {lexemes : List Text} {text : Text} (h : Spaced lexemes text)
    {k : Nat} {lexeme : Text} (hget : lexemes[k]? = some lexeme) :
    ∃ after, text.drop (lexemeStart lexemes k) = lexeme ++ after ∧ StartsBlank after := by
  induction h generalizing k with
  | single other =>
      rw [List.getElem?_singleton] at hget
      split at hget
      · next hzero =>
          obtain rfl : other = lexeme := Option.some.inj hget
          exact ⟨[], by simp [hzero, lexemeStart], Or.inl rfl⟩
      · cases hget
  | @cons other blank rest text hblank hrest ih =>
      cases k with
      | zero =>
          obtain rfl : other = lexeme := Option.some.inj hget
          exact ⟨blank :: text, rfl, Or.inr ⟨blank, text, hblank, rfl⟩⟩
      | succ k =>
          obtain ⟨after, hdrop, hafter⟩ := ih hget
          refine ⟨after, ?_, hafter⟩
          rw [lexemeStart, List.drop_length_add_append, List.drop_succ_cons, hdrop]

end ReversePolish
