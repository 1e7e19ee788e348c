import ReversePolish.Proofs.Decomposition
import ReversePolish.Proofs.Position

/-!
# ReversePolish.Proofs.Marking

A failure **points at its token**, and the carets stand under it.

A failure at a token is found at the index where the lexeme of the token stands in the
expression, in either layout, and any other failure at the end (`pointsAt_of_evaluate`).
What is shown of it is a part of the expression with the carets below. The part is cut
down to some context and moved by the dots before it, and the column of the carets is
worked out apart from both, so the question is whether the carets still stand under what
the failure points at (`marks_of_pointsAt`).

Design points:

* An excerpt is told by the three parts of the expression that it makes: what is left out
  before it, what is shown, and what is left out behind it (`Excerpt.Cuts`). Indices
  occur in the lengths of the parts only.
* Everything about the carets is read off one equation: as far as the marker reaches,
  the excerpt from its column on is the expression from its index on
  (`Excerpt.Cuts.take_drop_column`).
-/

namespace ReversePolish

open Text

/-! ### Pointing at a token -/

/-- Whether an error points at its token in an expression, at a given index: at the
lexeme, or at the end if there is no lexeme. An empty lexeme is pointed at before white
space or at the end. -/
structure EvaluationError.PointsAt (error : EvaluationError) (expression : Text) (index : Nat) :
    Prop where
  location : error.location = ⟨expression, index⟩
  index_le : index ≤ expression.length
  token_eq_none_iff :
    error.diagnostic.token = none ↔ error.diagnostic.kind = .malformedExpression
  slice : ∀ token ∈ error.diagnostic.token,
    Text.slice index (index + token.length : Nat) expression = token
  blank : error.diagnostic.token = some [] → StartsBlank (expression.drop index)
  last : error.diagnostic.token = none → index = expression.length

theorem pointsAt_of_evaluate {expression : Text} {skipEmpty : Bool} {reason : Failure}
    (h : evaluate expression skipEmpty = .ok (.failure reason)) :
    ∃ index, reason.error.PointsAt expression index := by
  obtain ⟨tokens, htokens, hcause⟩ := evaluate_failure_inv h
  rcases hcause with ⟨token, hmem, stack, fault, hstep, rfl⟩ | ⟨found, rfl⟩
  · obtain ⟨piece, hpiece, htoken⟩ := exists_of_mem_mapM htokens hmem
    obtain ⟨hlexeme, hstart⟩ := carries_of_ofPiece htoken
    have hstands := stands_of_mem_pieces (mem_keptPieces_iff.mp hpiece).1
    have hlexeme : fault.diagnostic.token = some piece.text := by
      rw [← hlexeme]
      exact Machine.token_of_step_error hstep
    have hkind : fault.token = none ↔ fault.kind = .malformedExpression := Fault.token_eq_none_iff
    refine ⟨piece.start, ?_, ?_, hkind, ?_, ?_, ?_⟩
    · rw [← hstart]
      rfl
    · exact Nat.le_trans (Nat.le_add_right _ _) hstands.stop_le
    · intro text htext
      obtain rfl : piece.text = text := Option.some.inj (hlexeme.symm.trans htext)
      exact hstands.slice
    · intro hempty
      exact hstands.blank (Option.some.inj (hlexeme.symm.trans hempty))
    · intro hnone
      exact absurd (hlexeme.symm.trans hnone) nofun
  · have hkind : (Fault.malformed found).token = none ↔
        (Fault.malformed found).kind = .malformedExpression := Fault.token_eq_none_iff
    exact ⟨expression.length, rfl, Nat.le_refl _, hkind, nofun, nofun, fun _ => rfl⟩

/-! ### Cutting an excerpt -/

/-- The dots that stand for a part that was left out, if anything was. -/
def dotsFor (part : Text) : Text := if part = [] then [] else ['.', '.', '.']

theorem length_dotsFor_le (part : Text) : (dotsFor part).length ≤ 3 := by
  unfold dotsFor
  split <;> decide

/-- Whether an excerpt shows an expression around the span of `width` code points at an
index: it leaves out what is more than twenty code points away from the span on either
side, with dots for what is left out, and its column is the place of the index. -/
structure Excerpt.Cuts (excerpt : Excerpt) (expression : Text) (index width : Nat)
    (left shown right : Text) : Prop where
  append : left ++ shown ++ right = expression
  length_left : left.length = index - 20
  length_right : right.length = expression.length - (index + width + 20)
  text : excerpt.text = dotsFor left ++ shown ++ dotsFor right
  column : excerpt.column = ((dotsFor left).length + (index - left.length) : Nat)

theorem omission_eq_dotsFor {isOmitted : Bool} {part : Text}
    (h : isOmitted = true ↔ part ≠ []) : omission isOmitted = dotsFor part := by
  unfold omission dotsFor
  by_cases hpart : part = []
  · rw [if_pos hpart, if_neg fun homitted => h.mp homitted hpart]
  · rw [if_neg hpart, if_pos (h.mpr hpart)]
    rfl

theorem excerpt_cuts {expression : Text} {index : Nat} (h : index ≤ expression.length)
    (width : Nat) :
    ∃ left shown right,
      (Location.excerpt ⟨expression, index⟩ width).Cuts expression index width left shown right := by
  -- Counted in natural numbers, the bounds need no clamping.
  have hstart : max 0 ((index : Int) - excerptMargin) = (index - 20 : Nat) := by
    unfold excerptMargin
    omega
  have hstop : min (expression.length : Int) (index + width + excerptMargin) =
      (min expression.length (index + width + 20) : Nat) := by
    unfold excerptMargin
    omega
  have hleft : omission (0 < ((index - 20 : Nat) : Int)) =
      dotsFor (expression.take (index - 20)) := by
    refine omission_eq_dotsFor ?_
    rw [decide_eq_true_eq, Ne, List.take_eq_nil_iff, ← List.length_eq_zero_iff]
    omega
  have hright : omission (((min expression.length (index + width + 20) : Nat) : Int) <
      expression.length) = dotsFor (expression.drop (index + width + 20)) := by
    refine omission_eq_dotsFor ?_
    rw [decide_eq_true_eq, Ne, List.drop_eq_nil_iff]
    omega
  have hlength : (expression.take (index - 20)).length = index - 20 := by
    rw [List.length_take]
    omega
  refine ⟨expression.take (index - 20),
    slice (index - 20 : Nat) (index + width + 20 : Nat) expression,
    expression.drop (index + width + 20), take_append_slice_append_drop (by omega) expression,
    hlength, List.length_drop, ?_, ?_⟩
  · simp only [Location.excerpt, hstart, hstop, slice_min_length, hleft, hright]
  · simp only [Location.excerpt, hstart, hleft, hlength]
    omega

namespace Excerpt.Cuts

variable {excerpt : Excerpt} {expression left shown right : Text} {index width : Nat}

theorem length_shown (h : excerpt.Cuts expression index width left shown right) :
    left.length + shown.length + right.length = expression.length := by
  rw [← h.append, List.length_append, List.length_append]

theorem offset_le (h : excerpt.Cuts expression index width left shown right)
    (hindex : index ≤ expression.length) : index - left.length ≤ shown.length := by
  have hshown := h.length_shown
  have hleft := h.length_left
  have hright := h.length_right
  omega

/-- **The carets stand under what is marked.** As far as the marker reaches, the excerpt
from its column on is the expression from the index on. -/
theorem take_drop_column (h : excerpt.Cuts expression index width left shown right)
    (hindex : index ≤ expression.length) :
    (excerpt.text.drop excerpt.column.toNat).take width = (expression.drop index).take width := by
  have hoffset := h.offset_le hindex
  have hshown := h.length_shown
  have hleft := h.length_left
  have hright := h.length_right
  have hexcerpt : excerpt.text.drop excerpt.column.toNat =
      shown.drop (index - left.length) ++ dotsFor right := by
    rw [h.text, h.column, Int.toNat_natCast, List.append_assoc, List.drop_length_add_append,
      List.drop_append_of_le_length hoffset]
  have hexpression : expression.drop index = shown.drop (index - left.length) ++ right := by
    have hsplit : index = left.length + (index - left.length) := by omega
    rw [hsplit, ← h.append, List.append_assoc, List.drop_length_add_append,
      Nat.add_sub_cancel_left, List.drop_append_of_le_length hoffset]
  rw [hexcerpt, hexpression]
  by_cases hempty : right = []
  · rw [hempty]
    rfl
  · -- Something is left out behind the excerpt, so the margin is shown in full.
    have hpos := List.length_pos_iff.mpr hempty
    have hlong : width ≤ (shown.drop (index - left.length)).length := by
      rw [List.length_drop]
      omega
    rw [List.take_append_of_le_length hlong, List.take_append_of_le_length hlong]

/-- What the first caret stands under. -/
theorem getElem?_column (h : excerpt.Cuts expression index width left shown right)
    (hindex : index ≤ expression.length) (hwidth : 0 < width) :
    excerpt.text[excerpt.column.toNat]? = expression[index]? := by
  have hfirst := congrArg (fun text : Text => text[0]?) (h.take_drop_column hindex)
  simpa only [List.getElem?_take_of_lt hwidth, List.getElem?_drop, Nat.add_zero] using hfirst

theorem column_le_length (h : excerpt.Cuts expression index width left shown right)
    (hindex : index ≤ expression.length) : excerpt.column.toNat ≤ excerpt.text.length := by
  have hoffset := h.offset_le hindex
  rw [h.text, h.column, Int.toNat_natCast, List.length_append, List.length_append]
  omega

theorem column_le (h : excerpt.Cuts expression index width left shown right) :
    excerpt.column.toNat ≤ 23 := by
  have hleft := h.length_left
  have hdots := length_dotsFor_le left
  rw [h.column, Int.toNat_natCast]
  omega

theorem length_text_le (h : excerpt.Cuts expression index width left shown right)
    (hindex : index ≤ expression.length) (hwidth : width ≤ 40) : excerpt.text.length ≤ 86 := by
  have hshown := h.length_shown
  have hleft := h.length_left
  have hright := h.length_right
  have hdots := length_dotsFor_le left
  have hdots' := length_dotsFor_le right
  rw [h.text, List.length_append, List.length_append]
  omega

theorem text_eq (h : excerpt.Cuts expression index width left shown right) (hstart : index ≤ 20)
    (hstop : expression.length ≤ index + width + 20) : excerpt.text = expression := by
  have hleft : left = [] := List.length_eq_zero_iff.mp (by rw [h.length_left]; omega)
  have hright : right = [] := List.length_eq_zero_iff.mp (by rw [h.length_right]; omega)
  rw [h.text, ← h.append, hleft, hright]
  rfl

/-- Where the end is marked, the carets stand behind the excerpt. -/
theorem column_eq_length (h : excerpt.Cuts expression index width left shown right)
    (hindex : index = expression.length) (hwidth : 0 < width) :
    excerpt.column.toNat = excerpt.text.length := by
  have hle := h.column_le_length (Nat.le_of_eq hindex)
  have htake := h.take_drop_column (Nat.le_of_eq hindex)
  rw [hindex, List.drop_length, List.take_nil, List.take_eq_nil_iff, List.drop_eq_nil_iff] at htake
  omega

end Excerpt.Cuts

/-! ### The shown form -/

/-- How an error is shown: the message, an excerpt and the carets, each on a line of its
own, with the carets under the lexeme that the error points at. -/
structure EvaluationError.Marks (error : EvaluationError) (expression : Text) (index : Nat)
    (excerpt : Text) (column width : Nat) : Prop where
  render : error.render = "[Evaluation error] ".toList ++ error.diagnostic.detail ++ ['\n'] ++
    excerpt ++ ['\n'] ++ List.replicate column ' ' ++ List.replicate width '^'
  width_eq : width = min (max 1 (error.diagnostic.token.getD []).length) 40
  /-- The carets stand under a lexeme, or its start if it is long. -/
  slice : ∀ token ∈ error.diagnostic.token, token ≠ [] →
    Text.slice column (column + width : Nat) excerpt = token.take width
  /-- An empty lexeme is marked by the white space or the end behind it. -/
  blank : error.diagnostic.token = some [] →
    (∃ c ∈ excerpt[column]?, isBlank c = true) ∨ column = excerpt.length
  last : error.diagnostic.kind = .malformedExpression → column = excerpt.length
  cuts : ∃ left shown right,
    Excerpt.Cuts ⟨excerpt, column⟩ expression index width left shown right
  /-- The excerpt of an expression that leaves nothing out is the expression. -/
  whole : index ≤ 20 → expression.length ≤ index + width + 20 → excerpt = expression
  length_le : excerpt.length ≤ 86
  column_le : column ≤ 23

theorem markerWidth_eq (diagnostic : Diagnostic) :
    diagnostic.markerWidth = min (max 1 (diagnostic.token.getD []).length) 40 := rfl

theorem render_eq (error : EvaluationError) :
    error.render = "[Evaluation error] ".toList ++ error.diagnostic.detail ++ ['\n'] ++
      (error.location.excerpt error.diagnostic.markerWidth).text ++ ['\n'] ++
      List.replicate (error.location.excerpt error.diagnostic.markerWidth).column.toNat ' ' ++
      List.replicate error.diagnostic.markerWidth '^' := rfl

/-- The excerpt around what an error points at marks it. -/
theorem marks_of_pointsAt {error : EvaluationError} {expression : Text} {index : Nat}
    (h : error.PointsAt expression index) :
    ∃ excerpt column width, error.Marks expression index excerpt column width := by
  obtain ⟨left, shown, right, hcuts⟩ := excerpt_cuts h.index_le error.diagnostic.markerWidth
  have hwidth := markerWidth_eq error.diagnostic
  have hrender := render_eq error
  rw [h.location] at hrender
  -- Nothing below depends on how the excerpt or the width is worked out.
  generalize Location.excerpt ⟨expression, index⟩ error.diagnostic.markerWidth = excerpt at *
  generalize error.diagnostic.markerWidth = width at *
  have hpos : 0 < width := by omega
  have haligned := hcuts.take_drop_column h.index_le
  refine ⟨excerpt.text, excerpt.column.toNat, width, ?_⟩
  constructor
  case render => exact hrender
  case width_eq => exact hwidth
  case slice =>
    intro token htoken hne
    have hlexeme := h.slice token htoken
    have hshort : width ≤ token.length := by
      have hlength := List.length_pos_iff.mpr hne
      rw [Option.mem_def.mp htoken, Option.getD_some] at hwidth
      omega
    rw [slice_natCast, Nat.add_sub_cancel_left] at hlexeme ⊢
    rw [haligned, ← hlexeme, List.take_take, Nat.min_eq_left hshort]
  case blank =>
    intro hempty
    rcases h.blank hempty with hend | ⟨blank, rest, hblank, hrest⟩
    · have hle := List.drop_eq_nil_iff.mp hend
      exact Or.inr (hcuts.column_eq_length (Nat.le_antisymm h.index_le hle) hpos)
    · refine Or.inl ⟨blank, ?_, hblank⟩
      rw [Option.mem_def, hcuts.getElem?_column h.index_le hpos, ← List.head?_drop, hrest,
        List.head?_cons]
  case last =>
    intro hkind
    exact hcuts.column_eq_length (h.last (h.token_eq_none_iff.mpr hkind)) hpos
  case cuts =>
    have hcolumn : (excerpt.column.toNat : Int) = excerpt.column := by
      rw [hcuts.column, Int.toNat_natCast]
    rw [hcolumn]
    exact ⟨left, shown, right, hcuts⟩
  case whole =>
    intro hleft hright
    exact hcuts.text_eq (by omega) (by omega)
  case length_le => exact hcuts.length_text_le h.index_le (by omega)
  case column_le => exact hcuts.column_le

/-- **The carets stand under the offending token.** A failure tells the same in its located
form, and that points at a token of the expression, or at its end where the expression is
malformed. Shown, it has its carets under what it points at, however the excerpt is cut. -/
theorem marks_of_evaluate {expression : Text} {skipEmpty : Bool} {reason : Failure}
    (h : evaluate expression skipEmpty = .ok (.failure reason)) :
    reason.error.diagnostic = reason.diagnostic ∧
      ∃ index excerpt column width, reason.error.PointsAt expression index ∧
        reason.error.Marks expression index excerpt column width := by
  obtain ⟨index, hpoints⟩ := pointsAt_of_evaluate h
  obtain ⟨excerpt, column, width, hmarks⟩ := marks_of_pointsAt hpoints
  exact ⟨rfl, index, excerpt, column, width, hpoints, hmarks⟩

/-- An unknown lexeme with more than twenty code points on either side, so that both ends
are cut: it is shown behind the dots and the twenty code points before it. -/
theorem marks_unknown_between_ones :
    let ones : Text := (List.replicate 11 ['1', ' ']).flatten
    let expression : Text := ones ++ ['x', 'y', 'z'] ++ ones.reverse
    let error : EvaluationError :=
      ⟨(Fault.unknownOperator ['x', 'y', 'z']).diagnostic, ⟨expression, 22⟩⟩
    evaluate expression false = .ok (.failure ⟨error.diagnostic, some error.location⟩) ∧
      error.PointsAt expression 22 ∧ ∃ excerpt, error.Marks expression 22 excerpt 23 3 := by
  intro ones expression error
  have hfailure :
      evaluate expression false = .ok (.failure ⟨error.diagnostic, some error.location⟩) := by
    decide +kernel
  obtain ⟨-, index, excerpt, column, width, hpoints, hmarks⟩ := marks_of_evaluate hfailure
  have hindex : (index : Int) = 22 := congrArg Location.position hpoints.location.symm
  obtain rfl : index = 22 := by omega
  obtain rfl : width = 3 := hmarks.width_eq
  obtain ⟨left, shown, right, hcuts⟩ := hmarks.cuts
  have hleft : left.length = 2 := hcuts.length_left
  have hdots : (dotsFor left).length = 3 := by
    rw [dotsFor, if_neg (List.ne_nil_of_length_eq_add_one hleft)]
    rfl
  have hcolumn : (column : Int) = ((dotsFor left).length + (22 - left.length) : Nat) := hcuts.column
  obtain rfl : column = 23 := by omega
  exact ⟨hfailure, hpoints, excerpt, hmarks⟩

end ReversePolish
