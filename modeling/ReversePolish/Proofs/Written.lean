import ReversePolish.Proofs.Postorder
import ReversePolish.Proofs.Range
import ReversePolish.Proofs.Reference
import ReversePolish.Proofs.Tokenize

/-!
# ReversePolish.Proofs.Written

**Trees written as text**, and what evaluating the text gives.

A tree is written in postorder, each leaf by any numeral of its value and each
operator by its symbol (`Written`), with one white-space character of any kind
between each two lexemes (`Spaced`). Evaluating such a text goes through every
stage: the layout, the cut, the reading of numerals, and the machine. It ends with
the value of the tree by the second evaluation (`Tree.reference`), or at the symbol
of the first subtree that divides by zero by that evaluation. A single leaf is left out:
without white space its digits would stand for themselves.
-/

namespace ReversePolish

open Text

/-- The lexemes write the tree. -/
inductive Written : Tree → List Text → Prop
  /-- A word is written by a numeral of it, of any spelling that can be read. -/
  | leaf (numeral : Numeral) : Word.InRange numeral.value →
      numeral.digits.length ≤ Literal.digitLimit → Written (.leaf numeral.value) [numeral.text]
  /-- Both operands are written before the symbol. -/
  | node (op : Operator) {left right : Tree} {lefts rights : List Text} :
      Written left lefts → Written right rights →
      Written (.node op left right) (lefts ++ rights ++ [[op.symbol]])

namespace Written

theorem hasWords {tree : Tree} {lexemes : List Text} (h : Written tree lexemes) :
    tree.HasWords := by
  induction h with
  | leaf numeral hrange _ => exact hrange
  | node op _ _ ihLeft ihRight => exact ⟨ihLeft, ihRight⟩

theorem unbroken {tree : Tree} {lexemes : List Text} (h : Written tree lexemes) :
    ∀ lexeme ∈ lexemes, Unbroken lexeme ∧ lexeme ≠ [] := by
  induction h with
  | leaf numeral _ _ =>
      intro lexeme hmem
      obtain rfl := List.mem_singleton.mp hmem
      refine ⟨numeral.unbroken_text, fun hnil => ?_⟩
      exact numeral.digits_ne_nil (List.append_eq_nil_iff.mp hnil).2
  | node op _ _ ihLeft ihRight =>
      intro lexeme hmem
      simp only [List.mem_append, List.mem_singleton] at hmem
      rcases hmem with (hmem | hmem) | rfl
      · exact ihLeft lexeme hmem
      · exact ihRight lexeme hmem
      · refine ⟨fun c hc => ?_, List.cons_ne_nil _ _⟩
        obtain rfl := List.mem_singleton.mp hc
        exact op.isBlank_symbol

/-- The lexemes mean the postorder of the tree. -/
theorem mapM_ofLexeme {tree : Tree} {lexemes : List Text} (h : Written tree lexemes) :
    lexemes.mapM Meaning.ofLexeme = .ok tree.postorder := by
  induction h with
  | leaf numeral hrange hlength =>
      rw [mapM_cons_ok (Numeral.ofLexeme_text hrange hlength)]
      rfl
  | node op _ _ ihLeft ihRight =>
      refine mapM_append_ok (mapM_append_ok ihLeft ihRight) ?_
      rw [mapM_cons_ok op.ofLexeme_symbol]
      rfl

theorem length_eq {tree : Tree} {lexemes : List Text} (h : Written tree lexemes) :
    lexemes.length = tree.postorder.length :=
  (mapM_eq_ok_iff.mp h.mapM_ofLexeme).length_eq

theorem length_pos {tree : Tree} {lexemes : List Text} (h : Written tree lexemes) :
    0 < lexemes.length := by
  cases h with
  | leaf => exact Nat.one_pos
  | node =>
      rw [List.length_append, List.length_singleton]
      exact Nat.succ_pos _

theorem two_le_length {op : Operator} {left right : Tree} {lexemes : List Text}
    (h : Written (.node op left right) lexemes) : 2 ≤ lexemes.length := by
  cases h with
  | @node _ _ _ lefts rights hlefts hrights =>
      have hleft := hlefts.length_pos
      rw [List.length_append, List.length_append, List.length_singleton]
      omega

/-- The tokens of a written tree. -/
def tokens (tree : Tree) (lexemes : List Text) : List Token :=
  List.zipWith Piece.token (placed 0 lexemes) tree.postorder

theorem map_meaning_tokens {tree : Tree} {lexemes : List Text} (h : Written tree lexemes) :
    (tokens tree lexemes).map Token.meaning = tree.postorder := by
  refine map_meaning_zipWith_token ?_
  rw [← h.length_eq, length_placed]

/-- A token that is an operator is its symbol, at the start of its lexeme. -/
theorem token_of_operator {tree : Tree} {lexemes : List Text} (h : Written tree lexemes) {k : Nat}
    {token : Token} {op : Operator} (hget : (tokens tree lexemes)[k]? = some token)
    (hop : tree.postorder[k]? = some (.operator op)) :
    lexemes[k]? = some [op.symbol] ∧ token.lexeme = [op.symbol] ∧
      token.start = lexemeStart lexemes k := by
  obtain ⟨piece, meaning, hpiece, hmeaning, rfl⟩ := getElem?_zipWith_token hget
  obtain rfl : meaning = .operator op := Option.some.inj (hmeaning.symm.trans hop)
  rw [getElem?_placed] at hpiece
  obtain ⟨lexeme, hlexeme, rfl⟩ := Option.map_eq_some_iff.mp hpiece
  have hok : Meaning.ofLexeme lexeme = .ok (.operator op) := by
    have hall := mapM_eq_ok_iff.mp h.mapM_ofLexeme
    obtain ⟨hbound, rfl⟩ := List.getElem?_eq_some_iff.mp hlexeme
    obtain ⟨hbound', heq⟩ := List.getElem?_eq_some_iff.mp hmeaning
    rw [← heq]
    exact hall.get hbound hbound'
  obtain rfl := eq_symbol_of_ofLexeme hok
  exact ⟨hlexeme, rfl, by simp [Piece.token]⟩

end Written

/-! ### Evaluating what is written -/

theorem Spaced.getElem?_symbol {lexemes : List Text} {text : Text} (h : Spaced lexemes text)
    {k : Nat} {op : Operator} (hget : lexemes[k]? = some [op.symbol]) :
    text[lexemeStart lexemes k]? = some op.symbol := by
  obtain ⟨after, hdrop, -⟩ := h.drop_lexemeStart hget
  rw [← Nat.add_zero (lexemeStart lexemes k), ← List.getElem?_drop, hdrop]
  rfl

/-- A written tree comes to its value. -/
theorem Written.evaluate_of_value {tree : Tree} {lexemes : List Text} {expression : Text}
    {value : Int} (hwritten : Written tree lexemes) (hspaced : Spaced lexemes expression)
    (hlength : 2 ≤ lexemes.length) (hvalue : tree.value = some value) (skipEmpty : Bool) :
    evaluate expression skipEmpty = .ok (.success value) := by
  have htokens : tokenize expression skipEmpty = .ok (tokens tree lexemes) :=
    tokenize_of_spaced hspaced hwritten.unbroken hlength hwritten.mapM_ofLexeme skipEmpty
  have hrun := run_postorder hwritten.map_meaning_tokens hvalue []
  rw [evaluate_of_tokenize htokens, Machine.outcome_of_run_value hrun]

/-- The first division by zero, as it shows in a text: what was to be divided, the
symbol, and its place. -/
theorem outcome_written_none {tree : Tree} {lexemes : List Text} {expression : Text}
    (hwritten : Written tree lexemes) (hspaced : Spaced lexemes expression)
    (hnone : tree.value = none) :
    ∃ before op left right dividend,
      tree.FirstDivisionByZero Tree.value before op left right ∧ left.value = some dividend ∧
        expression[lexemeStart lexemes before.length]? = some op.symbol ∧
        Machine.outcome (Written.tokens tree lexemes) expression =
          .failure ⟨(Fault.divisionByZero [op.symbol] dividend).diagnostic,
            some ⟨expression, lexemeStart lexemes before.length⟩⟩ := by
  obtain ⟨before, op, left, right, dividend, token, hfirst, hleft, hget, hrun⟩ :=
    run_postorder_none hwritten.map_meaning_tokens hnone []
  obtain ⟨hlexeme, hsymbol, hstart⟩ :=
    hwritten.token_of_operator hget hfirst.getElem?_postorder
  rw [hsymbol, hstart] at hrun
  exact ⟨before, op, left, right, dividend, hfirst, hleft, hspaced.getElem?_symbol hlexeme,
    Machine.outcome_of_run_error hrun expression⟩

/-- **Evaluation of written trees.** With or without empty pieces, the text of a tree
with an operator has the value of the tree by the second evaluation. If that divides
by zero, the outcome is a division by zero at the symbol of the first subtree, in
postorder, that does; the message shows what was to be divided. -/
theorem evaluate_written {op : Operator} {left right : Tree} {lexemes : List Text}
    {expression : Text} (hwritten : Written (.node op left right) lexemes)
    (hspaced : Spaced lexemes expression) (skipEmpty : Bool) :
    (∀ value, (Tree.node op left right).reference = some value →
      evaluate expression skipEmpty = .ok (.success value)) ∧
    ((Tree.node op left right).reference = none →
      ∃ before divider l r dividend,
        (Tree.node op left right).FirstDivisionByZero Tree.reference before divider l r ∧
          l.reference = some dividend ∧
          expression[lexemeStart lexemes before.length]? = some divider.symbol ∧
          evaluate expression skipEmpty =
            .ok (.failure ⟨(Fault.divisionByZero [divider.symbol] dividend).diagnostic,
              some ⟨expression, lexemeStart lexemes before.length⟩⟩)) := by
  have hwords := hwritten.hasWords
  have htokens : tokenize expression skipEmpty = .ok (Written.tokens _ lexemes) :=
    tokenize_of_spaced hspaced hwritten.unbroken hwritten.two_le_length hwritten.mapM_ofLexeme
      skipEmpty
  rw [evaluate_of_tokenize htokens, Tree.reference_eq_value hwords]
  refine ⟨?_, ?_⟩
  · intro value hvalue
    have hrun := run_postorder hwritten.map_meaning_tokens hvalue []
    rw [Machine.outcome_of_run_value hrun]
  · intro hnone
    obtain ⟨before, divider, l, r, dividend, hfirst, hl, hsymbol, herror⟩ :=
      outcome_written_none hwritten hspaced hnone
    have hnode : (Tree.node divider l r).HasWords :=
      hwords.of_mem_subtrees (hfirst.listed.subset (by simp))
    have hl' : l.reference = some dividend := by rw [Tree.reference_eq_value hnode.1, hl]
    refine ⟨before, divider, l, r, dividend, hfirst.reference hwords, hl', hsymbol, ?_⟩
    rw [herror]

/-- A tab and a space, a sign and a leading zero: `-7 +02 /` has a truncated quotient,
and `1 -0 %` has no remainder. -/
theorem evaluate_quotient_and_remainder :
    evaluate ['-', '7', '\t', '+', '0', '2', ' ', '/'] true = .ok (.success (-3)) ∧
    ∃ (divider : Operator) (dividend : Int) (position : Nat),
      ['1', ' ', '-', '0', ' ', '%'][position]? = some divider.symbol ∧
      evaluate ['1', ' ', '-', '0', ' ', '%'] false =
        .ok (.failure ⟨(Fault.divisionByZero [divider.symbol] dividend).diagnostic,
          some ⟨['1', ' ', '-', '0', ' ', '%'], position⟩⟩) := by
  have hquotient : Written (.node .div (.leaf (-7)) (.leaf 2))
      [['-', '7'], ['+', '0', '2'], ['/']] :=
    .node .div
      (.leaf ⟨.minus, ['7'], by decide, List.all_eq_true.mp rfl⟩ (by decide) (by decide))
      (.leaf ⟨.plus, ['0', '2'], by decide, List.all_eq_true.mp rfl⟩ (by decide) (by decide))
  have hremainder : Written (.node .mod (.leaf 1) (.leaf 0)) [['1'], ['-', '0'], ['%']] :=
    .node .mod
      (.leaf ⟨.absent, ['1'], by decide, List.all_eq_true.mp rfl⟩ (by decide) (by decide))
      (.leaf ⟨.minus, ['0'], by decide, List.all_eq_true.mp rfl⟩ (by decide) (by decide))
  have hspaced : Spaced [['-', '7'], ['+', '0', '2'], ['/']]
      ['-', '7', '\t', '+', '0', '2', ' ', '/'] :=
    .cons ['-', '7'] (by decide) (.cons ['+', '0', '2'] (by decide) (.single ['/']))
  have hspaced' : Spaced [['1'], ['-', '0'], ['%']] ['1', ' ', '-', '0', ' ', '%'] :=
    .cons ['1'] (by decide) (.cons ['-', '0'] (by decide) (.single ['%']))
  constructor
  · exact (evaluate_written hquotient hspaced true).1 (-3) rfl
  · obtain ⟨before, divider, l, r, dividend, -, -, hsymbol, hfailure⟩ :=
      (evaluate_written hremainder hspaced' false).2 rfl
    exact ⟨divider, dividend, _, hsymbol, hfailure⟩

end ReversePolish
