import RdfStore.Proofs.Peg.Rename

/-!
# Places in a text

Nodes that look the same can stand at several places, so a node is told apart from others by the
way to it. A property of the nodes of some rules, wherever they stand inside a node, follows from
that of its children, and nodes whose rules cannot call those rules have it for want of any.
-/

set_option autoImplicit false

namespace RdfStore.Peg

/-- The way to a node of a text: its position among its siblings, then that of its parent. -/
abbrev Path := List Nat

variable {R : Type}

/-- A node stands at a place inside another node, or is that node itself. -/
inductive StandsIn : Path → ParseTree R → Path → ParseTree R → Prop where
  | here {place : Path} {node : ParseTree R} : StandsIn place node place node
  | child {place place' : Path} {node child node' : ParseTree R} {i : Nat}
    (hchild : node.children[i]? = some child) (h : StandsIn (i :: place) child place' node') :
    StandsIn place node place' node'

/-- What passes from a node to its children holds of all nodes inside it. -/
theorem StandsIn.keeps {place place' : Path} {node node' : ParseTree R} {p : ParseTree R → Prop}
    (hin : StandsIn place node place' node') (h : p node)
    (hchildren : ∀ node, p node → ∀ child ∈ node.children, p child) : p node' := by
  induction hin with
  | here => exact h
  | child hchild _ ih => exact ih (hchildren _ h _ (List.mem_of_getElem? hchild))

/-- What stands in a node stands in it wherever the node is. -/
theorem StandsIn.exists {place place' : Path} {node node' : ParseTree R}
    (hin : StandsIn place node place' node') (other : Path) :
    ∃ place', StandsIn other node place' node' := by
  induction hin generalizing other with
  | here => exact ⟨other, .here⟩
  | @child _ _ _ _ _ i hchild _ ih =>
    obtain ⟨place', hin⟩ := ih (i :: other)
    exact ⟨place', .child hchild hin⟩

/-- A node has another node somewhere inside it, or is that node. -/
def Holds (node node' : ParseTree R) : Prop := ∃ place, StandsIn [] node place node'

/-- A node holds itself. -/
theorem holds_self (node : ParseTree R) : Holds node node := ⟨[], .here⟩

/-- What a child holds the node holds. -/
theorem Holds.of_child {node child node' : ParseTree R} (hchild : child ∈ node.children)
    (h : Holds child node') : Holds node node' := by
  obtain ⟨i, hi⟩ := List.mem_iff_getElem?.mp hchild
  obtain ⟨_, hin⟩ := h
  obtain ⟨place, hin⟩ := hin.exists [i]
  exact ⟨place, .child hi hin⟩

/-- All nodes of the meant rules have a property wherever they stand in a node. -/
def HoldsIn (isMeant : R → Bool) (p : Path → ParseTree R → Prop) (place : Path)
    (node : ParseTree R) : Prop :=
  ∀ place' node', StandsIn place node place' node' → isMeant node'.rule = true → p place' node'

/-- They have it in all children of a node from a position on. -/
def HoldsBehind (isMeant : R → Bool) (p : Path → ParseTree R → Prop) (place : Path) (i : Nat)
    (nodes : List (ParseTree R)) : Prop :=
  ∀ j child, nodes[j]? = some child → HoldsIn isMeant p ((i + j) :: place) child

variable {isMeant : R → Bool} {p q : Path → ParseTree R → Prop} {place : Path} {i : Nat}
  {node : ParseTree R} {nodes : List (ParseTree R)}

/-- What is held in a place with a property is held there with any weaker one. -/
theorem HoldsIn.mono (h : HoldsIn isMeant p place node)
    (hpq : ∀ place node, p place node → q place node) : HoldsIn isMeant q place node :=
  fun place' node' hin hrule => hpq place' node' (h place' node' hin hrule)

/-- What is held behind a place with a property is held there with any weaker one. -/
theorem HoldsBehind.mono (h : HoldsBehind isMeant p place i nodes)
    (hpq : ∀ place node, p place node → q place node) : HoldsBehind isMeant q place i nodes :=
  fun j child hchild => (h j child hchild).mono hpq

/-- No nodes hold nothing that lacks the property. -/
theorem holdsBehind_nil : HoldsBehind isMeant p place i [] := by
  intro j child hchild
  simp at hchild

/-- Nodes in a row hold with a property what the first and the others hold with it. -/
theorem holdsBehind_cons (h : HoldsIn isMeant p (i :: place) node)
    (hmore : HoldsBehind isMeant p place (i + 1) nodes) :
    HoldsBehind isMeant p place i (node :: nodes) := by
  intro j child hchild
  cases j with
  | zero =>
    cases hchild
    exact h
  | succ j =>
    have hin := hmore j child hchild
    rwa [Nat.add_right_comm] at hin

/-- What holds in the children of a node holds in the node if it holds of the node itself. -/
theorem HoldsBehind.holdsIn (h : HoldsBehind isMeant p place 0 node.children)
    (hnode : isMeant node.rule = true → p place node) : HoldsIn isMeant p place node := by
  intro place' node' hin hrule
  cases hin with
  | here => exact hnode hrule
  | @child _ _ _ child _ i hchild hin =>
    have hbelow := h i child hchild
    rw [Nat.zero_add] at hbelow
    exact hbelow place' node' hin hrule

/-- A node that is not meant itself holds what its children hold. -/
theorem HoldsBehind.holdsIn_of_eq_false (h : HoldsBehind isMeant p place 0 node.children)
    (hnode : isMeant node.rule = false) : HoldsIn isMeant p place node := by
  apply h.holdsIn
  intro hmeant
  simp [hnode] at hmeant

/-- There is nothing to show where the rules cannot call the meant ones. -/
theorem holdsIn_of_isFree {g : Grammar R} {isFree : R → Bool} (hclosed : g.IsClosed isFree)
    (hfree : ∀ r, isFree r = true → isMeant r = false) (hformed : IsFormed g node)
    (hrule : isFree node.rule = true) : HoldsIn isMeant p place node := by
  intro place' node' hin hmeant
  induction hin with
  | here =>
    rw [hfree _ hrule] at hmeant
    cases hmeant
  | @child place place' node child node' i hchild _ ih =>
    have hmem := List.mem_of_getElem? hchild
    refine ih (hformed.children child hmem) ?_ hmeant
    cases hformed with
    | node _ hleaves _ => exact hleaves.isShared hclosed (hclosed _ hrule) _ (List.mem_map_of_mem hmem)

end RdfStore.Peg
