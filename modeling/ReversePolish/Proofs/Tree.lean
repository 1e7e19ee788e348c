import ReversePolish.Token

/-!
# ReversePolish.Proofs.Tree

**Expression trees**: the meaning of an expression, apart from any stack.

A tree has integers at its leaves and an operator at each inner node. Written in
**postorder**, both operands before their operator, it is a sequence of meanings
with neither brackets nor precedence.

Design points:

* Postorder is **uniquely decodable**, not only for one tree but for a list of
  trees written one after the other (`flatMap_postorder_injective`): no marker
  is needed where one tree ends and the next begins. The reader `Tree.read` is
  a left inverse, and exists for this proof alone.
* `Tree.subtrees` lists the subtrees in the order in which their last tokens are
  written, so the position of a subtree is that of the token at its root.
-/

namespace ReversePolish

/-- An expression tree. -/
inductive Tree
  /-- An integer, of any size. -/
  | leaf (value : Int)
  /-- An operator with its left and its right operand. -/
  | node (op : Operator) (left right : Tree)
  deriving Repr, DecidableEq

namespace Tree

/-- A tree as it is written: the operands, then the operator. -/
def postorder : Tree → List Meaning
  | leaf value => [.operand value]
  | node op left right => left.postorder ++ right.postorder ++ [.operator op]

/-- The value of a tree, which is missing when an operator in it would divide by
zero. -/
def value : Tree → Option Int
  | leaf value => some value
  | node op left right =>
    left.value.bind fun a => right.value.bind fun b => op.apply a b

/-- The subtrees, in the order in which their last tokens are written. -/
def subtrees : Tree → List Tree
  | leaf value => [leaf value]
  | node op left right => left.subtrees ++ right.subtrees ++ [node op left right]

@[simp] theorem postorder_leaf (value : Int) : (leaf value).postorder = [.operand value] := rfl

@[simp] theorem postorder_node (op : Operator) (left right : Tree) :
    (node op left right).postorder = left.postorder ++ right.postorder ++ [.operator op] := rfl

@[simp] theorem value_leaf (value : Int) : (leaf value).value = some value := rfl

theorem value_node {op : Operator} {left right : Tree} {a b : Int} (hleft : left.value = some a)
    (hright : right.value = some b) : (node op left right).value = op.apply a b := by
  simp only [value, hleft, hright, Option.bind_some]

/-- What is written for the root of a tree. -/
def root : Tree → Meaning
  | leaf value => .operand value
  | node op _ _ => .operator op

/-- A subtree is listed where its root is written. -/
theorem postorder_eq_map_root (tree : Tree) : tree.postorder = tree.subtrees.map root := by
  induction tree with
  | leaf value => rfl
  | node op left right ihLeft ihRight =>
      rw [postorder_node, subtrees, List.map_append, List.map_append, ihLeft, ihRight]
      rfl

theorem length_subtrees (tree : Tree) : tree.subtrees.length = tree.postorder.length := by
  rw [postorder_eq_map_root, List.length_map]

/-! ### Reading trees back

`read` works like the machine, but on trees: an operand becomes a leaf, and an
operator joins the two topmost trees. -/

/-- The trees that a sequence of meanings leaves on a stack of trees, the
topmost first. -/
def read : List Meaning → List Tree → Option (List Tree)
  | [], trees => some trees
  | .operand value :: rest, trees => read rest (leaf value :: trees)
  | .operator op :: rest, right :: left :: trees => read rest (node op left right :: trees)
  | _, _ => none

theorem read_postorder_append (tree : Tree) (rest : List Meaning) (trees : List Tree) :
    read (tree.postorder ++ rest) trees = read rest (tree :: trees) := by
  -- What is written behind a tree varies: behind the left operand it is the right one.
  induction tree generalizing rest trees with
  | leaf value => rfl
  | node op left right ihLeft ihRight =>
      rw [postorder_node, List.append_assoc, List.append_assoc, ihLeft, ihRight]
      rfl

theorem read_flatMap_postorder (written : List Tree) (trees : List Tree) :
    read (written.flatMap postorder) trees = some (written.reverse ++ trees) := by
  induction written generalizing trees with
  | nil => rfl
  | cons tree rest ih =>
      rw [List.flatMap_cons, read_postorder_append, ih]
      simp

/-- **Unique decodability**: trees written one after the other are determined by
what is written. -/
theorem flatMap_postorder_injective {first second : List Tree}
    (h : first.flatMap postorder = second.flatMap postorder) : first = second := by
  have hread : read (first.flatMap postorder) [] = read (second.flatMap postorder) [] := by rw [h]
  rw [read_flatMap_postorder, read_flatMap_postorder] at hread
  simpa using hread

theorem postorder_injective {first second : Tree} (h : first.postorder = second.postorder) :
    first = second := by
  have hlist : [first] = [second] := flatMap_postorder_injective (by simpa using h)
  simpa using hlist

/-! ### Division by zero

A tree without a value has a subtree whose operator would divide by zero, and one
of them is written first. Both notions go by an evaluation `eval` of trees, so
that two evaluations can be compared. What goes wrong first below the root goes
wrong first in the tree; the root comes last (`ofLeft`, `ofRight`, `ofRoot`). -/

/-- Whether the operator at the root would divide by zero. -/
def DividesByZero (eval : Tree → Option Int) : Tree → Prop
  | leaf _ => False
  | node op _ right => op.divides = true ∧ eval right = some 0

/-- `node op left right` is the first subtree to divide by zero; `before` are the
subtrees that are written before it. -/
structure FirstDivisionByZero (eval : Tree → Option Int) (tree : Tree) (before : List Tree)
    (op : Operator) (left right : Tree) : Prop where
  listed : before ++ [node op left right] <+: tree.subtrees
  divides : (node op left right).DividesByZero eval
  first : ∀ subtree ∈ before, ¬ subtree.DividesByZero eval

theorem FirstDivisionByZero.getElem?_postorder {eval : Tree → Option Int} {tree left right : Tree}
    {before : List Tree} {op : Operator} (h : FirstDivisionByZero eval tree before op left right) :
    tree.postorder[before.length]? = some (.operator op) := by
  obtain ⟨after, hafter⟩ := h.listed
  rw [postorder_eq_map_root, ← hafter, List.append_assoc, List.getElem?_map,
    List.getElem?_append_right (Nat.le_refl _), Nat.sub_self]
  rfl

theorem value_eq_none_of_dividesByZero {tree : Tree} (h : tree.DividesByZero value) :
    tree.value = none := by
  cases tree with
  | leaf value => exact h.elim
  | node op left right =>
      obtain ⟨hdivides, hright⟩ := h
      cases hleft : left.value with
      | none => simp only [value, hleft, Option.bind_none]
      | some a =>
          rw [value_node hleft hright]
          exact Operator.apply_eq_none_iff.mpr ⟨hdivides, rfl⟩

theorem isSome_value_of_mem_subtrees {tree subtree : Tree} {v : Int} (h : tree.value = some v)
    (hmem : subtree ∈ tree.subtrees) : subtree.value.isSome := by
  induction tree generalizing v with
  | leaf value =>
      obtain rfl : subtree = leaf value := by simpa [subtrees] using hmem
      rfl
  | node op left right ihLeft ihRight =>
      obtain ⟨a, hleft, hrest⟩ := Option.bind_eq_some_iff.mp h
      obtain ⟨b, hright, -⟩ := Option.bind_eq_some_iff.mp hrest
      simp only [subtrees, List.mem_append, List.mem_singleton] at hmem
      rcases hmem with (hmem | hmem) | rfl
      · exact ihLeft hleft hmem
      · exact ihRight hright hmem
      · rw [h]
        rfl

theorem not_dividesByZero_of_mem_subtrees {tree subtree : Tree} {v : Int}
    (h : tree.value = some v) (hmem : subtree ∈ tree.subtrees) :
    ¬ subtree.DividesByZero value := by
  intro hzero
  have hsome := isSome_value_of_mem_subtrees h hmem
  rw [value_eq_none_of_dividesByZero hzero] at hsome
  cases hsome

theorem FirstDivisionByZero.ofLeft {eval : Tree → Option Int} {left right l r : Tree}
    {before : List Tree} {op : Operator} (h : FirstDivisionByZero eval left before op l r)
    (root : Operator) : FirstDivisionByZero eval (node root left right) before op l r where
  listed := h.listed.trans (by simp [subtrees])
  divides := h.divides
  first := h.first

theorem FirstDivisionByZero.ofRight {eval : Tree → Option Int} {left right l r : Tree}
    {before : List Tree} {op : Operator} (h : FirstDivisionByZero eval right before op l r)
    (hleft : ∀ subtree ∈ left.subtrees, ¬ subtree.DividesByZero eval) (root : Operator) :
    FirstDivisionByZero eval (node root left right) (left.subtrees ++ before) op l r where
  listed := by
    rw [subtrees, List.append_assoc, List.append_assoc, List.prefix_append_right_inj]
    exact h.listed.trans (List.prefix_append _ _)
  divides := h.divides
  first := by
    intro subtree hmem
    rcases List.mem_append.mp hmem with hmem | hmem
    · exact hleft subtree hmem
    · exact h.first subtree hmem

theorem FirstDivisionByZero.ofRoot {eval : Tree → Option Int} {left right : Tree} {op : Operator}
    (h : (node op left right).DividesByZero eval)
    (hleft : ∀ subtree ∈ left.subtrees, ¬ subtree.DividesByZero eval)
    (hright : ∀ subtree ∈ right.subtrees, ¬ subtree.DividesByZero eval) :
    FirstDivisionByZero eval (node op left right) (left.subtrees ++ right.subtrees) op left
      right where
  listed := List.prefix_rfl
  divides := h
  first := by
    intro subtree hmem
    rcases List.mem_append.mp hmem with hmem | hmem
    · exact hleft subtree hmem
    · exact hright subtree hmem

end Tree

end ReversePolish
