import RdfStore.Yaml.Token

/-!
# YAML nodes

Scalars, sequences and mappings as they are written, with their tags and anchors. An alias
stands for a node with an anchor elsewhere in the document.

Anchors are numbered: an anchor gets the number of different names before it, also where its
name was used before, and an alias has the number of the last anchor with its name before it.
A number belongs to the last node of the document that got it. This is how the library `serde_yaml`
finds the node of an alias.
-/

set_option autoImplicit false

namespace RdfStore.Yaml

/-- What stands before the content of a node. -/
structure Properties where
  /-- The number of the anchor. -/
  anchor : Option Nat := none
  tag : Option Tag := none
deriving DecidableEq

/-- A node. -/
inductive Node where
  | alias (anchor : Nat)
  | scalar (properties : Properties) (text : String) (style : Style)
  | sequence (properties : Properties) (items : List Node)
  | mapping (properties : Properties) (entries : List (Node × Node))

/-- The scalar without characters, which stands where a node is left out. -/
def Node.nothing : Node := .scalar {} "" .plain

/-- Whether a node is left out; it may have a tag and an anchor. -/
def Node.isNothing : Node → Bool
  | .scalar _ text style => text.isEmpty && style == .plain
  | _ => false

/-- The properties of a node. -/
def Node.properties : Node → Properties
  | .alias _ => {}
  | .scalar p _ _ => p
  | .sequence p _ => p
  | .mapping p _ => p

mutual

/-- How many marks it takes to write a node: one for a scalar or an alias, two around the
parts of a collection. -/
def Node.size : Node → Nat
  | .alias _ => 1
  | .scalar _ _ _ => 1
  | .sequence _ items => 2 + Node.sizeOfItems items
  | .mapping _ entries => 2 + Node.sizeOfEntries entries

/-- The size of the items of a sequence. -/
def Node.sizeOfItems : List Node → Nat
  | [] => 0
  | item :: rest => item.size + Node.sizeOfItems rest

/-- The size of the entries of a mapping. -/
def Node.sizeOfEntries : List (Node × Node) → Nat
  | [] => 0
  | (key, value) :: rest => key.size + value.size + Node.sizeOfEntries rest

end

/-- The node itself by the number of its anchor, if it has one. -/
def Node.anchoredHere (node : Node) : List (Nat × Node) :=
  node.properties.anchor.toList.map fun number => (number, node)

mutual

/-- The nodes with anchors by their numbers, in the order in which they start. -/
def Node.anchored : Node → List (Nat × Node)
  | .alias _ => []
  | .scalar p text style => Node.anchoredHere (.scalar p text style)
  | .sequence p items => Node.anchoredHere (.sequence p items) ++ Node.anchoredItems items
  | .mapping p entries => Node.anchoredHere (.mapping p entries) ++ Node.anchoredEntries entries

/-- The nodes with anchors among the items of a sequence. -/
def Node.anchoredItems : List Node → List (Nat × Node)
  | [] => []
  | item :: rest => item.anchored ++ Node.anchoredItems rest

/-- The nodes with anchors among the entries of a mapping. -/
def Node.anchoredEntries : List (Node × Node) → List (Nat × Node)
  | [] => []
  | (key, value) :: rest => key.anchored ++ value.anchored ++ Node.anchoredEntries rest

end

end RdfStore.Yaml
