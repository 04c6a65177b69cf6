import RdfStore.Proofs.Query.Scoping

/-!
# Collections of a block

Wherever a collection stands in a block of triples that has a meaning, what the block says holds
one piece for it: what its items say, and behind that the patterns of a list with one cell for each
item and nothing else.
-/

set_option autoImplicit false

namespace RdfStore.Query

open RdfStore.Peg RdfStore.Syntax

variable {number : Spot → Nat} {scope : IriScope} {inTemplate : Bool} {ps qs : List Pattern}
  {place : Path} {i : Nat} {node : Node} {nodes : List Node} {rule : Symbol} {start : Nat}
  {text : List Char} {children : List Node}

/-! ## The shape of blocks -/

/-- The properties of a subject are verbs, each followed by a list of objects. -/
theorem arePairs_of_formed (h : IsFormed grammar (.node .propertyList start text children)) :
    ArePairs [.var, .path] .objectList (children.map ParseTree.rule) := by
  have hshown : ∀ r ∈ Symbol.verbObjects.calls, (grammar.production r).manner ≠ .silent := by decide
  obtain ⟨mode, hmode, hleaves⟩ := h.leaves rfl
  exact hleaves.arePairs rfl rfl fun r hr => Manner.isVisible_of_ne (hshown r hr) hmode

/-- Between brackets there is one list of properties. -/
theorem children_of_propertyList
    (h : IsFormed grammar (.node .blankNodePropertyList start text children)) :
    ∃ child, children = [child] ∧ child.rule = .propertyList := by
  have hshape : children.map ParseTree.rule ∈ [[Symbol.propertyList]] := h.shape rfl (by decide) rfl
  exact eq_singleton_of_map_rule (List.mem_singleton.mp hshape)

/-- Behind the subject of triples there is at most a list of properties. -/
theorem children_of_sameSubject (h : IsFormed grammar (.node .sameSubject start text children)) :
    (children.drop 1).map ParseTree.rule ∈ [[], [Symbol.propertyList]] := by
  have hshape := h.shape rfl (by decide) rfl
  have hall : ∀ shape ∈ (Symbol.sameSubject.production.body.shapes? fun _ => false).getD [],
      shape.drop 1 ∈ [[], [Symbol.propertyList]] := by decide
  rw [List.map_drop]
  exact hall _ hshape

/-- A block has subjects with their properties. -/
theorem children_of_block (hrule : rule = .triplesBlock ∨ rule = .templateTriples)
    (h : IsFormed grammar (.node rule start text children)) :
    ∀ child ∈ children, child.rule = .sameSubject := by
  have hcalls : ∀ r ∈ (grammar.production rule).body.calls, r = .sameSubject := by
    rcases hrule with rfl | rfl <;> decide
  have hshown : ∀ r ∈ (grammar.production rule).body.calls,
      (grammar.production r).manner ≠ .silent := by
    intro r hr
    rw [hcalls r hr]
    nofun
  intro child hchild
  refine hcalls _ (h.mem_calls ?_ hshown child hchild)
  rcases hrule with rfl | rfl <;> rfl

/-! ## Lists -/

/-- What a collection at a place says is among some patterns, in some scope. -/
def IsLinked (number : Spot → Nat) (inTemplate : Bool) (ps : List Pattern) (place : Path)
    (node : Node) : Prop :=
  ∃ scope, listing.IsLinked (cells number inTemplate place) (.term (.iri Vocabulary.rdfNil))
    node.children.length (saidPlaces number scope inTemplate place 0 node.children)
    (saidPlace number scope inTemplate place node) ps

/-- The rules of collections, with items and without. -/
def isCollection (rule : Symbol) : Bool := rule == .collection || rule == .emptyList

/-- All collections in a node are linked in some patterns. -/
abbrev AreLinked (number : Spot → Nat) (inTemplate : Bool) (ps : List Pattern) :
    Path → Node → Prop :=
  HoldsIn isCollection (IsLinked number inTemplate ps)

/-- So are those in the children of a node from a position on. -/
abbrev AreAllLinked (number : Spot → Nat) (inTemplate : Bool) (ps : List Pattern) :
    Path → Nat → List Node → Prop :=
  HoldsBehind isCollection (IsLinked number inTemplate ps)

/-- A list that is linked in some patterns is linked in more of them. -/
theorem IsLinked.mono (hts : ps <:+: qs) (place : Path) (node : Node)
    (h : IsLinked number inTemplate ps place node) : IsLinked number inTemplate qs place node := by
  obtain ⟨scope, h⟩ := h
  exact ⟨scope, h.mono hts⟩

/-- The collections of two parts of a node are linked in what both say. -/
theorem areAllLinked_cons (h : AreLinked number inTemplate ps (i :: place) node)
    (hmore : AreAllLinked number inTemplate qs place (i + 1) nodes) :
    AreAllLinked number inTemplate (ps ++ qs) place i (node :: nodes) :=
  holdsBehind_cons (h.mono (IsLinked.mono (infix_left ps qs)))
    (hmore.mono (IsLinked.mono (infix_right ps qs)))

/-- The rules of terms and paths, which have no collections. -/
def isPlain : Symbol → Bool
  | .terminal _ | .var | .literal | .boolean | .path | .pathSequence | .pathElement | .pathInverse
  | .pathRepeat | .pathPrimary | .pathNegated | .pathStep | .typeKeyword => true
  | _ => false

/-- The plain rules call only each other. -/
theorem isClosed_isPlain : grammar.IsClosed isPlain := by
  intro rule hrule
  cases rule with
  | terminal t => cases t <;> rfl
  | _ => first | rfl | cases hrule

/-- There is no collection in a plain node. -/
theorem areLinked_of_isPlain (hformed : IsFormed grammar node) (hplain : isPlain node.rule = true) :
    AreLinked number inTemplate ps place node := by
  refine holdsIn_of_isFree isClosed_isPlain (fun rule hrule => ?_) hformed hplain
  cases rule <;> first | rfl | cases hrule

/-- Constants are plain. -/
theorem isPlain_of_saidBy {t : Term} (h : saidBy (readTerm scope node) = .means t ps) :
    isPlain node.rule = true := by
  obtain ⟨rule, start, text, children⟩ := node
  cases rule with
  | terminal t => rfl
  | literal => rfl
  | boolean => rfl
  | _ => cases h

/-- Each node of a list is an item. -/
theorem length_of_saidPlaces {items : List Place}
    (h : saidPlaces number scope inTemplate place i nodes = .means items ps) :
    items.length = nodes.length := by
  induction nodes generalizing i items ps with
  | nil =>
    cases h
    rfl
  | cons node nodes ih =>
    obtain ⟨item, _, _, -, hmore, -⟩ := Said.bind_eq_means h
    obtain ⟨rest, _, _, hrest, hitems, -⟩ := Said.bind_eq_means hmore
    cases hitems
    rw [List.length_cons, List.length_cons, ih hrest]

/-! ## Places and properties -/

mutual

/-- What a node says for a place links the lists inside it. -/
theorem areLinked_of_saidPlace (place : Path) : ∀ node : Node, IsFormed grammar node →
    ∀ (own : Place) (ps : List Pattern),
      saidPlace number scope inTemplate place node = .means own ps →
        AreLinked number inTemplate ps place node
  | .node rule start text children, hformed, own, ps, h => by
    cases hplain : isPlain rule with
    | true => exact areLinked_of_isPlain hformed hplain
    | false =>
      have hchildren := hformed.children
      unfold saidPlace at h
      split at h
      all_goals try cases hplain
      · -- the list without items
        obtain rfl : children = [] := hformed.children_eq_nil rfl
        refine holdsBehind_nil.holdsIn fun _ => ⟨scope, ?_⟩
        have hitems : saidPlaces number scope inTemplate place 0 [] >>= listing.link _ _ = _ := h
        have hlist := listing.isLinked_of_bind hitems fun items inner => length_of_saidPlaces
        rw [saidPlace]
        exact hlist
      · -- a list of properties between brackets
        obtain ⟨_, us, vs, hproperties, hnode, rfl⟩ := Said.bind_eq_means h
        cases hnode
        obtain ⟨child, hone, hchild⟩ := children_of_propertyList hformed
        have hrules : ∀ node ∈ children, node.rule = .propertyList := by
          simp only [hone, List.mem_singleton, forall_eq]
          exact hchild
        have hlinked := areAllLinked_of_saidProperties place 0 _ children hchildren hrules us
          hproperties (by simp [hone])
        exact (hlinked.mono (IsLinked.mono (infix_left us []))).holdsIn nofun
      · have hlist := listing.isLinked_of_bind h fun items inner hitems =>
          length_of_saidPlaces hitems
        obtain ⟨items, inner, own, hitems, -, rfl⟩ := Said.bind_eq_means h
        have hinner := areAllLinked_of_saidPlaces place 0 children hchildren items inner hitems
        refine (hinner.mono (IsLinked.mono (infix_left inner own))).holdsIn fun _ => ⟨scope, ?_⟩
        rw [saidPlace]
        exact hlist
      · rw [← bind_pure_comp] at h
        obtain ⟨t, _, _, hterm, -, -⟩ := Said.bind_eq_means h
        exact absurd (isPlain_of_saidBy hterm) (Bool.eq_false_iff.mp hplain)

/-- What nodes say for places links the lists inside them. -/
theorem areAllLinked_of_saidPlaces (place : Path) (i : Nat) : ∀ nodes : List Node,
    (∀ node ∈ nodes, IsFormed grammar node) → ∀ (items : List Place) (ps : List Pattern),
      saidPlaces number scope inTemplate place i nodes = .means items ps →
        AreAllLinked number inTemplate ps place i nodes
  | [], _, _, _, _ => holdsBehind_nil
  | node :: nodes, hformed, items, ps, h => by
    obtain ⟨item, us, vs, hitem, hitems, rfl⟩ := Said.bind_eq_means h
    obtain ⟨rest, vs, _, hrest, hall, rfl⟩ := Said.bind_eq_means hitems
    cases hall
    have hfirst := areLinked_of_saidPlace (i :: place) node (hformed node List.mem_cons_self) _ _
      hitem
    have hmore := areAllLinked_of_saidPlaces place (i + 1) nodes
      (fun n hn => hformed n (List.mem_cons_of_mem node hn)) _ _ hrest
    rw [List.append_nil]
    exact areAllLinked_cons hfirst hmore

/-- What a list of properties says links the lists inside it. -/
theorem areAllLinked_of_saidProperties (place : Path) (i : Nat) (subject : Place) :
    ∀ nodes : List Node, (∀ node ∈ nodes, IsFormed grammar node) →
      (∀ node ∈ nodes, node.rule = .propertyList) → ∀ ps : List Pattern,
        saidProperties number scope inTemplate place i subject nodes = .means () ps →
          nodes.length ≤ 1 → AreAllLinked number inTemplate ps place i nodes
  | [], _, _, _, _, _ => holdsBehind_nil
  | .node rule start text items :: rest, hformed, hrule, ps, h, hlength => by
    obtain rfl : rest = [] := List.length_eq_zero_iff.mp (by simpa using hlength)
    obtain rfl : rule = .propertyList := hrule _ List.mem_cons_self
    have hlist := hformed _ List.mem_cons_self
    have hlinked := areAllLinked_of_saidVerbObjects (i :: place) 0 subject items hlist.children
      (arePairs_of_formed hlist) ps h
    exact holdsBehind_cons (hlinked.holdsIn nofun) holdsBehind_nil

/-- What verbs and their objects say links the lists inside them. -/
theorem areAllLinked_of_saidVerbObjects (place : Path) (i : Nat) (subject : Place) :
    ∀ nodes : List Node, (∀ node ∈ nodes, IsFormed grammar node) →
      ArePairs [.var, .path] .objectList (nodes.map ParseTree.rule) → ∀ ps : List Pattern,
        saidVerbObjects number scope inTemplate place i subject nodes = .means () ps →
          AreAllLinked number inTemplate ps place i nodes
  | [], _, _, _, _ => holdsBehind_nil
  | [_], _, hpairs, _, _ => nomatch hpairs
  | verb :: .node rule start text objects :: rest, hformed, hpairs, ps, h => by
    obtain ⟨predicate, us, vs, hverb, hobjects, rfl⟩ := Said.bind_eq_means h
    obtain ⟨_, us', vs, hfirst, hrest, rfl⟩ := Said.bind_eq_means hobjects
    have hrest' := fun n hn => hformed n (List.mem_cons_of_mem verb (List.mem_cons_of_mem _ hn))
    have hlist := hformed _ (List.mem_cons_of_mem verb List.mem_cons_self)
    have hobjects := areAllLinked_of_saidObjects ((i + 1) :: place) 0 subject predicate objects
      hlist.children us' hfirst
    obtain ⟨hverb, hrule, hothers⟩ := hpairs.of_cons
    obtain rfl : rule = .objectList := hrule
    have hmore := areAllLinked_of_saidVerbObjects place (i + 2) subject rest hrest' hothers vs hrest
    have hplain : ∀ r ∈ [Symbol.var, .path], isPlain r = true := by decide
    exact areAllLinked_cons (areLinked_of_isPlain (hformed verb List.mem_cons_self) (hplain _ hverb))
      (areAllLinked_cons (hobjects.holdsIn nofun) hmore)

/-- What objects say links the lists inside them. -/
theorem areAllLinked_of_saidObjects (place : Path) (i : Nat) (subject predicate : Place) :
    ∀ nodes : List Node, (∀ node ∈ nodes, IsFormed grammar node) →
      ∀ ps : List Pattern,
        saidObjects number scope inTemplate place i subject predicate nodes = .means () ps →
          AreAllLinked number inTemplate ps place i nodes
  | [], _, _, _ => holdsBehind_nil
  | node :: nodes, hformed, ps, h => by
    obtain ⟨object, us, vs, hobject, hobjects, rfl⟩ := Said.bind_eq_means h
    obtain ⟨_, ws, vs, -, hrest, rfl⟩ := Said.bind_eq_means hobjects
    have hfirst := areLinked_of_saidPlace (i :: place) node (hformed node List.mem_cons_self) _ _
      hobject
    have hmore := areAllLinked_of_saidObjects place (i + 1) subject predicate nodes
      (fun n hn => hformed n (List.mem_cons_of_mem node hn)) vs hrest
    exact areAllLinked_cons hfirst (hmore.mono (IsLinked.mono (infix_right ws vs)))

end

/-! ## Blocks -/

/-- What a statement says links the lists inside it. -/
theorem areLinked_of_saidSameSubject (hformed : IsFormed grammar node)
    (hrule : node.rule = .sameSubject)
    (h : saidSameSubject number scope inTemplate place node = .means () ps) :
    AreLinked number inTemplate ps place node := by
  obtain ⟨rule, start, text, children⟩ := node
  obtain rfl : rule = .sameSubject := hrule
  cases children with
  | nil => exact holdsBehind_nil.holdsIn nofun
  | cons first rest =>
    have hchildren := hformed.children
    obtain ⟨subject, us, vs, hsubject, hproperties, rfl⟩ := Said.bind_eq_means h
    have hfirst := areLinked_of_saidPlace (0 :: place) first (hchildren first List.mem_cons_self)
      _ _ hsubject
    have hrules : rest.map ParseTree.rule ∈ [[], [Symbol.propertyList]] :=
      children_of_sameSubject hformed
    have hrest : rest.length ≤ 1 ∧ ∀ node ∈ rest, node.rule = .propertyList := by
      simp only [List.mem_cons, List.not_mem_nil, or_false, List.map_eq_nil_iff] at hrules
      rcases hrules with rfl | hrules
      · simp
      · obtain ⟨list, rfl, hlist⟩ := eq_singleton_of_map_rule hrules
        simpa using hlist
    have hmore := areAllLinked_of_saidProperties place 1 subject rest
      (fun n hn => hchildren n (List.mem_cons_of_mem first hn)) hrest.2 vs hproperties hrest.1
    exact (areAllLinked_cons hfirst hmore).holdsIn nofun

/-- All collections of a block are linked in what it says. -/
theorem areLinked_of_saidBlocks
    (hformed : ∀ node ∈ nodes, IsFormed grammar node ∧ node.rule = .sameSubject)
    (h : saidBlocks number scope inTemplate place i nodes = .means () ps) :
    AreAllLinked number inTemplate ps place i nodes := by
  induction nodes generalizing i ps with
  | nil => exact holdsBehind_nil
  | cons node nodes ih =>
    obtain ⟨_, us, vs, hfirst, hrest, rfl⟩ := Said.bind_eq_means h
    obtain ⟨hnode, hrule⟩ := hformed node List.mem_cons_self
    have hmore := ih (fun n hn => hformed n (List.mem_cons_of_mem node hn)) hrest
    exact areAllLinked_cons (areLinked_of_saidSameSubject hnode hrule hfirst) hmore

end RdfStore.Query
