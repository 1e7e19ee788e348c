import ReversePolish.Proofs.Run
import ReversePolish.Proofs.Tree

/-!
# ReversePolish.Proofs.Postorder

The machine **accepts postorder and computes values**.

Soundness goes by the forest invariant (`Forest`): whatever has been consumed so
far is a row of trees, one for each value on the stack, and each value is that of
its tree. Completeness goes by induction on the tree, over any stack and with
any tokens behind it: the tokens of a tree push its value (`run_postorder`), or
stop at its first division by zero (`run_postorder_none`). Together with unique
decodability of postorder they say that an expression has a value exactly when it
writes a tree that has one.

Only the meanings of tokens matter here. Their lexemes and positions show in the
faults alone.
-/

namespace ReversePolish

open Machine

/-! ### The forest invariant -/

/-- The tokens consumed so far write the `trees`, and the stack holds their
values. The trees stand from the bottom of the stack to its top. -/
structure Forest (trees : List Tree) (consumed : List Token) (stack : Stack) : Prop where
  written : trees.flatMap Tree.postorder = consumed.map Token.meaning
  values : trees.map Tree.value = stack.reverse.map some

namespace Forest

theorem nil : Forest [] [] [] := ⟨rfl, rfl⟩

theorem split {trees : List Tree} {consumed : List Token} {left right : Int} {rest : Stack}
    (h : Forest trees consumed (right :: left :: rest)) :
    ∃ trees' l r, trees = trees' ++ [l, r] ∧ trees'.map Tree.value = rest.reverse.map some ∧
      l.value = some left ∧ r.value = some right := by
  have hvalues : trees.map Tree.value = rest.reverse.map some ++ [some left, some right] := by
    rw [h.values]
    simp
  -- The cut between the values is a cut between the trees.
  obtain ⟨trees', top, rfl, hrest, htop⟩ := List.map_eq_append_iff.mp hvalues
  obtain ⟨l, tail, rfl, hl, htail⟩ := List.map_eq_cons_iff.mp htop
  obtain ⟨r, tail', rfl, hr, htail'⟩ := List.map_eq_cons_iff.mp htail
  obtain rfl : tail' = [] := List.map_eq_nil_iff.mp htail'
  exact ⟨trees', l, r, rfl, hrest, hl, hr⟩

/-- One token keeps the invariant: an operand plants a tree, an operator joins
the two topmost ones. -/
theorem step {trees : List Tree} {consumed : List Token} {token : Token} {stack next : Stack}
    (h : Forest trees consumed stack) (hstep : Machine.step token stack = .ok next) :
    ∃ trees', Forest trees' (consumed ++ [token]) next := by
  rcases step_ok_inv hstep with
    ⟨value, hm, rfl⟩ | ⟨op, left, right, rest, value, hm, rfl, happly, rfl⟩
  · refine ⟨trees ++ [.leaf value], ?_, ?_⟩
    · simp [h.written, hm]
    · simp [h.values]
  · obtain ⟨trees', l, r, rfl, hrest, hl, hr⟩ := h.split
    have hnode : (Tree.node op l r).value = some value := by
      rw [Tree.value_node hl hr, happly]
    refine ⟨trees' ++ [.node op l r], ?_, ?_⟩
    · rw [List.map_append, ← h.written]
      simp [hm]
    · simp [hrest, hnode]

/-- A run from the empty stack leaves a forest. -/
theorem of_run {consumed : List Token} {stack : Stack} (h : run consumed [] = .ok stack) :
    ∃ trees, Forest trees consumed stack := by
  refine run_induction
    (motive := fun start final consumed => start = [] → ∃ trees, Forest trees consumed final)
    ?_ ?_ h rfl
  · rintro stack rfl
    exact ⟨[], nil⟩
  · intro start stack next consumed token ih hstep hstart
    obtain ⟨trees, hforest⟩ := ih hstart
    exact hforest.step hstep

theorem unique {trees other : List Tree} {consumed : List Token} {stack : Stack}
    (h : Forest trees consumed stack)
    (hother : other.flatMap Tree.postorder = consumed.map Token.meaning) : other = trees :=
  Tree.flatMap_postorder_injective (hother.trans h.written.symm)

end Forest

/-! ### Running a tree -/

/-- The tokens of an inner node are those of its operands and one for its
operator. -/
theorem split_postorder_node {tokens : List Token} {op : Operator} {left right : Tree}
    (h : tokens.map Token.meaning = (Tree.node op left right).postorder) :
    ∃ lefts rights token, tokens = lefts ++ rights ++ [token] ∧
      lefts.map Token.meaning = left.postorder ∧ rights.map Token.meaning = right.postorder ∧
      token.meaning = .operator op := by
  rw [Tree.postorder_node] at h
  obtain ⟨operands, last, rfl, hoperands, hlast⟩ := List.map_eq_append_iff.mp h
  obtain ⟨lefts, rights, rfl, hlefts, hrights⟩ := List.map_eq_append_iff.mp hoperands
  obtain ⟨token, rfl, htoken⟩ := List.map_eq_singleton_iff.mp hlast
  exact ⟨lefts, rights, token, rfl, hlefts, hrights, htoken⟩

/-- The tokens of a tree with a value push that value on any stack. -/
theorem run_postorder {tree : Tree} {tokens : List Token} {value : Int}
    (h : tokens.map Token.meaning = tree.postorder) (hvalue : tree.value = some value)
    (stack : Stack) : run tokens stack = .ok (value :: stack) := by
  -- The right operand runs on a stack that holds the value of the left one already.
  induction tree generalizing tokens value stack with
  | leaf v =>
      obtain ⟨token, rfl, hm⟩ := List.map_eq_singleton_iff.mp h
      cases hvalue
      exact run_singleton_ok (step_operand hm stack)
  | node op left right ihLeft ihRight =>
      obtain ⟨lefts, rights, token, rfl, hlefts, hrights, hm⟩ := split_postorder_node h
      obtain ⟨a, ha, hrest⟩ := Option.bind_eq_some_iff.mp hvalue
      obtain ⟨b, hb, happly⟩ := Option.bind_eq_some_iff.mp hrest
      rw [List.append_assoc, run_append_ok (ihLeft hlefts ha stack),
        run_append_ok (ihRight hrights hb (a :: stack))]
      apply run_singleton_ok
      rw [step_operator hm, operate_some happly]

/-! ### Where a tree stops

A tree without a value stops the machine too, at a token that the tree alone
decides: the root of the first subtree to divide by zero. -/

/-- From `stack`, the tokens stop the machine at the root of the first subtree
that divides by zero. -/
def StopsAtZero (tree : Tree) (tokens : List Token) (stack : Stack) : Prop :=
  ∃ before op left right dividend token,
    tree.FirstDivisionByZero Tree.value before op left right ∧ left.value = some dividend ∧
    tokens[before.length]? = some token ∧
    run tokens stack = .error ⟨.divisionByZero token.lexeme dividend, token.start⟩

theorem length_eq_length_subtrees {tree : Tree} {tokens : List Token}
    (h : tokens.map Token.meaning = tree.postorder) : tokens.length = tree.subtrees.length := by
  rw [Tree.length_subtrees, ← h, List.length_map]

theorem StopsAtZero.inLeft {left right : Tree} {lefts : List Token} {stack : Stack}
    (h : StopsAtZero left lefts stack) (op : Operator) (rest : List Token) :
    StopsAtZero (.node op left right) (lefts ++ rest) stack := by
  obtain ⟨before, op', l, r, dividend, token, hfirst, hl, hget, hrun⟩ := h
  refine ⟨before, op', l, r, dividend, token, hfirst.ofLeft op, hl, ?_,
    run_append_error hrun rest⟩
  have hbound : before.length < lefts.length := (List.getElem?_eq_some_iff.mp hget).1
  rw [List.getElem?_append_left hbound, hget]

theorem StopsAtZero.inRight {left right : Tree} {lefts rights : List Token} {a : Int}
    {stack : Stack} (hlefts : lefts.map Token.meaning = left.postorder)
    (hvalue : left.value = some a) (h : StopsAtZero right rights (a :: stack)) (op : Operator)
    (rest : List Token) :
    StopsAtZero (.node op left right) (lefts ++ (rights ++ rest)) stack := by
  obtain ⟨before, op', l, r, dividend, token, hfirst, hl, hget, hrun⟩ := h
  refine ⟨left.subtrees ++ before, op', l, r, dividend, token,
    hfirst.ofRight (fun _ => Tree.not_dividesByZero_of_mem_subtrees hvalue) op, hl, ?_, ?_⟩
  · have hbound : before.length < rights.length := (List.getElem?_eq_some_iff.mp hget).1
    rw [List.length_append, ← length_eq_length_subtrees hlefts,
      List.getElem?_append_right (by omega), Nat.add_sub_cancel_left,
      List.getElem?_append_left hbound, hget]
  · rw [run_append_ok (run_postorder hlefts hvalue stack), run_append_error hrun]

theorem StopsAtZero.atRoot {op : Operator} {left right : Tree} {lefts rights : List Token}
    {token : Token} {a : Int} (hlefts : lefts.map Token.meaning = left.postorder)
    (hrights : rights.map Token.meaning = right.postorder) (hm : token.meaning = .operator op)
    (hleft : left.value = some a) (hright : right.value = some 0) (hdivides : op.divides = true)
    (stack : Stack) : StopsAtZero (.node op left right) (lefts ++ (rights ++ [token])) stack := by
  refine ⟨left.subtrees ++ right.subtrees, op, left, right, a, token,
    .ofRoot ⟨hdivides, hright⟩ (fun _ => Tree.not_dividesByZero_of_mem_subtrees hleft)
      (fun _ => Tree.not_dividesByZero_of_mem_subtrees hright), hleft, ?_, ?_⟩
  · rw [List.length_append, ← length_eq_length_subtrees hlefts,
      ← length_eq_length_subtrees hrights, ← List.append_assoc, ← List.length_append]
    exact List.getElem?_concat_length
  · rw [run_append_ok (run_postorder hlefts hleft stack),
      run_append_ok (run_postorder hrights hright (a :: stack))]
    apply run_cons_error
    rw [step_operator hm, operate_zero hdivides]

theorem run_postorder_none {tree : Tree} {tokens : List Token}
    (h : tokens.map Token.meaning = tree.postorder) (hvalue : tree.value = none)
    (stack : Stack) : StopsAtZero tree tokens stack := by
  -- The first operand without a value stops the run; if both have one, the root does.
  induction tree generalizing tokens stack with
  | leaf v => cases hvalue
  | node op left right ihLeft ihRight =>
      obtain ⟨lefts, rights, token, rfl, hlefts, hrights, hm⟩ := split_postorder_node h
      rw [List.append_assoc]
      cases ha : left.value with
      | none => exact (ihLeft hlefts ha stack).inLeft op (rights ++ [token])
      | some a =>
          cases hb : right.value with
          | none => exact (ihRight hrights hb (a :: stack)).inRight hlefts ha op [token]
          | some b =>
              have hnone : op.apply a b = none := by rw [← Tree.value_node ha hb, hvalue]
              obtain ⟨hdivides, rfl⟩ := Operator.apply_eq_none_iff.mp hnone
              exact .atRoot hlefts hrights hm ha hb hdivides stack

/-! ### Values of expressions -/

/-- **Grammar and meaning of expressions.** After any tokens that the machine
consumes, exactly one row of trees writes them, and the stack holds their values,
one for each tree. So the tokens of an expression have a value exactly when they
write a tree that has it; that tree is the only one they write. -/
theorem evaluateTokens_iff_postorder (tokens : List Token) :
    (∀ consumed stack, consumed <+: tokens → run consumed [] = .ok stack →
      ∃ trees : List Tree, trees.flatMap Tree.postorder = consumed.map Token.meaning ∧
        trees.map Tree.value = stack.reverse.map some ∧
        ∀ other : List Tree,
          other.flatMap Tree.postorder = consumed.map Token.meaning → other = trees) ∧
    ∀ expression value, evaluateTokens tokens expression = .ok value ↔
      ∃ tree : Tree, tree.postorder = tokens.map Token.meaning ∧ tree.value = some value ∧
        ∀ other : Tree, other.postorder = tokens.map Token.meaning → other = tree := by
  refine ⟨?_, ?_⟩
  · intro consumed stack _ hrun
    obtain ⟨trees, hforest⟩ := Forest.of_run hrun
    exact ⟨trees, hforest.written, hforest.values, fun _ => hforest.unique⟩
  · intro expression value
    rw [evaluateTokens_eq_ok_iff]
    constructor
    · intro hrun
      obtain ⟨trees, hforest⟩ := Forest.of_run hrun
      obtain ⟨tree, rfl, hvalue⟩ := List.map_eq_singleton_iff.mp hforest.values
      have hwritten : tree.postorder = tokens.map Token.meaning := by
        simpa using hforest.written
      exact ⟨tree, hwritten, hvalue,
        fun _ hother => Tree.postorder_injective (hother.trans hwritten.symm)⟩
    · rintro ⟨tree, hwritten, hvalue, -⟩
      exact run_postorder hwritten.symm hvalue []

/-- After `4 0 9 -` two values wait, each of a tree of its own; one more `+` joins
them. -/
theorem two_trees_wait_and_join :
    (∀ other : List Tree, other.flatMap Tree.postorder =
        [.operand 4, .operand 0, .operand 9, .operator .sub] →
      other = [.leaf 4, .node .sub (.leaf 0) (.leaf 9)]) ∧
    evaluateTokens [⟨['4'], 0, .operand 4⟩, ⟨['0'], 2, .operand 0⟩, ⟨['9'], 4, .operand 9⟩,
      ⟨['-'], 6, .operator .sub⟩, ⟨['+'], 8, .operator .add⟩] [] = .ok (-5) := by
  obtain ⟨hforest, hvalue⟩ := evaluateTokens_iff_postorder
    [⟨['4'], 0, .operand 4⟩, ⟨['0'], 2, .operand 0⟩, ⟨['9'], 4, .operand 9⟩,
      ⟨['-'], 6, .operator .sub⟩, ⟨['+'], 8, .operator .add⟩]
  constructor
  · intro other hother
    obtain ⟨trees, -, -, hunique⟩ := hforest [⟨['4'], 0, .operand 4⟩, ⟨['0'], 2, .operand 0⟩,
      ⟨['9'], 4, .operand 9⟩, ⟨['-'], 6, .operator .sub⟩] [-9, 4] (by simp) rfl
    rw [hunique other hother, hunique [.leaf 4, .node .sub (.leaf 0) (.leaf 9)] rfl]
  · refine (hvalue [] (-5)).mpr
      ⟨.node .add (.leaf 4) (.node .sub (.leaf 0) (.leaf 9)), rfl, rfl, ?_⟩
    exact fun other hother => Tree.postorder_injective hother

end ReversePolish
