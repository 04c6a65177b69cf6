import RdfStore.Proofs.Peg.Cut
import RdfStore.Proofs.Query.Agree
import RdfStore.Proofs.Query.Ingredients
import RdfStore.Proofs.Syntax.SameTokens

/-!
# Nodes that are moved

The reader of a query uses the place of a node only to say where it refuses something. So it reads a
node alike wherever it stands: a term, a predicate, a pattern, a declaration, a number of rows.
-/

set_option autoImplicit false

namespace RdfStore.Query

open RdfStore.Peg RdfStore.Syntax RdfStore.Text
open ParseTree (unplacedAll)

/-! ## Nodes without places -/

mutual

/-- A node without places has none to leave out. -/
theorem unplaced_unplaced (node : Node) : node.unplaced.unplaced = node.unplaced := by
  match node with
  | .node _ _ _ children =>
    rw [ParseTree.unplaced, ParseTree.unplaced, unplacedAll_unplacedAll children]

/-- Nodes without places have none to leave out. -/
theorem unplacedAll_unplacedAll (nodes : List Node) :
    unplacedAll (unplacedAll nodes) = unplacedAll nodes := by
  match nodes with
  | [] => rfl
  | node :: rest =>
    rw [unplacedAll, unplacedAll, unplaced_unplaced node, unplacedAll_unplacedAll rest]

end

/-- Nodes that differ in their places only are of one rule. -/
theorem rule_eq_of_unplaced {node node' : Node} (h : node.unplaced = node'.unplaced) :
    node.rule = node'.rule := by
  obtain ⟨_, _, _, _⟩ := node
  obtain ⟨_, _, _, _⟩ := node'
  injection h

/-- Nodes that differ in their places only have the same text. -/
theorem text_eq_of_unplaced {node node' : Node} (h : node.unplaced = node'.unplaced) :
    node.text = node'.text := by
  obtain ⟨_, _, _, _⟩ := node
  obtain ⟨_, _, _, _⟩ := node'
  injection h

/-- Nodes that differ in their places only have the same name of a variable. -/
theorem variableName_eq_of_unplaced {node node' : Node} (h : node.unplaced = node'.unplaced) :
    variableName node = variableName node' := by
  unfold variableName
  rw [text_eq_of_unplaced h]

/-- Nodes that differ in their places only have children that do so. -/
theorem unplacedAll_children {node node' : Node} (h : node.unplaced = node'.unplaced) :
    unplacedAll node.children = unplacedAll node'.children := by
  obtain ⟨_, _, _, _⟩ := node
  obtain ⟨_, _, _, _⟩ := node'
  injection h

/-- No nodes are left of none. -/
theorem eq_nil_of_unplacedAll {nodes : List Node} (h : unplacedAll nodes = []) : nodes = [] := by
  cases nodes with
  | nil => rfl
  | cons _ _ => cases h

/-- A node without its place has the rule and the text of the node. -/
theorem eq_node_of_unplaced {node : Node} {rule : Symbol} {place : Nat} {text : List Char}
    {parts : List Node} (h : node.unplaced = .node rule place text parts) :
    ∃ start children, node = .node rule start text children ∧ unplacedAll children = parts := by
  obtain ⟨rule', start, text', children⟩ := node
  injection h with hrule _ htext hchildren
  subst hrule htext
  exact ⟨start, children, rfl, hchildren⟩

/-- Nodes that start with another one up to places have a first node. -/
theorem eq_cons_of_unplacedAll {nodes : List Node} {part : Node} {parts : List Node}
    (h : unplacedAll nodes = part :: parts) :
    ∃ node rest, nodes = node :: rest ∧ node.unplaced = part ∧ unplacedAll rest = parts := by
  cases nodes with
  | nil => cases h
  | cons node rest =>
    obtain ⟨hnode, hrest⟩ := List.cons.inj h
    exact ⟨node, rest, rfl, hnode, hrest⟩

/-- Nodes that are a single one up to places are a single one. -/
theorem eq_singleton_of_unplacedAll {nodes : List Node} {part : Node}
    (h : unplacedAll nodes = [part]) : ∃ node, nodes = [node] ∧ node.unplaced = part := by
  obtain ⟨node, rest, rfl, hnode, hrest⟩ := eq_cons_of_unplacedAll h
  cases rest with
  | nil => exact ⟨node, rfl, hnode⟩
  | cons _ _ => cases hrest

/-- Nodes in a row that are moved are moved one by one. -/
theorem forall₂_of_unplacedAll {nodes nodes' : List Node}
    (h : unplacedAll nodes = unplacedAll nodes') :
    List.Forall₂ (fun node node' : Node => node.unplaced = node'.unplaced) nodes nodes' := by
  induction nodes generalizing nodes' with
  | nil =>
    cases nodes' with
    | nil => exact .nil
    | cons _ _ => cases h
  | cons node rest ih =>
    cases nodes' with
    | nil => cases h
    | cons node' rest' =>
      obtain ⟨hnode, hrest⟩ := List.cons.inj h
      exact .cons hnode (ih hrest)

/-- Of nodes with the same rules the same are kept by their rules. -/
theorem forall₂_filter {related : Node → Node → Prop} {nodes nodes' : List Node}
    (hrule : ∀ node node', related node node' → node.rule = node'.rule) (keep : Symbol → Bool)
    (h : List.Forall₂ related nodes nodes') :
    List.Forall₂ related (nodes.filter fun node => keep node.rule)
      (nodes'.filter fun node => keep node.rule) := by
  refine List.rel_filter (fun node node' hnode => ?_) h
  show keep node.rule = true ↔ keep node'.rule = true
  rw [hrule node node' hnode]

/-! ## Terms and predicates -/

/-- A token and the same one at another place. -/
theorem sameToken_of_unplaced {node node' : Node} (h : node.unplaced = node'.unplaced) :
    SameToken Symbol.terminal? Symbol.terminal? node node' := by
  obtain ⟨rule, start, text, children⟩ := node
  obtain ⟨rule', start', text', children'⟩ := node'
  injection h with hrule _ htext hchildren
  subst hrule htext
  refine ⟨rfl, rfl, ?_⟩
  cases children <;> cases children' <;> try first | rfl | cases hchildren
  rename_i child _ child' _
  obtain ⟨_, _, _, _⟩ := child
  obtain ⟨_, _, _, _⟩ := child'
  injection hchildren with hchild
  injection hchild with _ _ htext
  exact htext.symm

/-- A token has one IRI, wherever it stands. -/
theorem agree_iri (scope : IriScope) {node node' : Node}
    (h : SameToken Symbol.terminal? Symbol.terminal? node node') :
    Agree Eq (take (scope.iri Symbol.terminal? node)) (take (scope.iri Symbol.terminal? node')) :=
  agree_take (fun _ => h.iri_eq)
    fun _ => SameToken.iri_eq ⟨h.rule.symm, h.text.symm, h.content.symm⟩

/-- Terms of the same tokens are the same, wherever they stand. -/
theorem readTerm_agree (scope : IriScope) {node node' : Node} (hrule : node.rule = node'.rule)
    (hboolean : node.rule = .boolean → node.text = node'.text)
    (htoken : ∀ t, node.rule = .terminal t → SameToken Symbol.terminal? Symbol.terminal? node node')
    (hparts : node.rule = .literal →
      List.Forall₂ (SameToken Symbol.terminal? Symbol.terminal?) node.children node'.children) :
    Agree Eq (readTerm scope node) (readTerm scope node') := by
  have hback : ∀ {a b : Node}, SameToken Symbol.terminal? Symbol.terminal? a b →
      SameToken Symbol.terminal? Symbol.terminal? b a :=
    fun h => ⟨h.rule.symm, h.text.symm, h.content.symm⟩
  unfold readTerm
  rw [← hrule]
  split
  · -- a literal
    rename_i hliteral
    have hsame := hparts hliteral
    have hsame' := hsame.flip.imp fun _ _ => hback
    exact (agree_take (fun _ => literal_eq_of_sameTokens hsame)
      fun _ => literal_eq_of_sameTokens hsame').map _
  · -- a truth value
    rename_i hrule
    rw [hboolean hrule]
    exact agree_pure rfl
  · -- a number or an IRI
    rename_i hterminal
    have hsame := htoken _ hterminal
    split
    · have hstring : node'.string = node.string := congrArg String.ofList hsame.text
      rw [hstring]
      exact agree_pure rfl
    · exact (agree_iri scope hsame).map _
  · exact agree_refuse _ _ _ _

/-- A constant term is read alike wherever it stands. -/
theorem readTerm_moved (scope : IriScope) {node node' : Node}
    (h : node.unplaced = node'.unplaced) :
    Agree Eq (readTerm scope node) (readTerm scope node') := by
  refine readTerm_agree scope (rule_eq_of_unplaced h) (fun _ => text_eq_of_unplaced h)
    (fun _ _ => sameToken_of_unplaced h) fun _ => ?_
  exact (forall₂_of_unplacedAll (unplacedAll_children h)).imp fun _ _ => sameToken_of_unplaced

/-- The place of the IRI of a path does not matter. -/
theorem readPath_unplaced (scope : IriScope) (node : Node) :
    Agree Eq (readPath scope node) (readPath scope node.unplaced) := by
  fun_induction readPath scope node with
  | case1 => exact agree_refl _
  | case2 _ _ _ _ _ _ _ _ _ _ _ _ _ _ _ ih => exact ih
  | case3 =>
    refine agree_iri scope (sameToken_of_unplaced ?_)
    simp only [ParseTree.unplaced, unplacedAll_unplacedAll]
  | case4 _ _ _ _ _ _ _ _ _ _ _ rule start text children _ h1 h2 h3 =>
    simp only [ParseTree.unplaced, unplacedAll]
    unfold readPath
    split <;>
      first
      | exact (h1 rfl).elim
      | exact (h2 rfl).elim
      | exact (h3 _ rfl).elim
      | exact agree_refl _
  | case5 node h =>
    unfold readPath
    split
    · rename_i hnode
      obtain ⟨_, _, rfl, hsequences⟩ := eq_node_of_unplaced hnode
      obtain ⟨_, rfl, hsequence⟩ := eq_singleton_of_unplacedAll hsequences
      obtain ⟨_, _, rfl, helements⟩ := eq_node_of_unplaced hsequence
      obtain ⟨_, rfl, helement⟩ := eq_singleton_of_unplacedAll helements
      obtain ⟨_, _, rfl, hprimaries⟩ := eq_node_of_unplaced helement
      obtain ⟨_, rfl, hprimary⟩ := eq_singleton_of_unplacedAll hprimaries
      obtain ⟨_, _, rfl, hsteps⟩ := eq_node_of_unplaced hprimary
      obtain ⟨_, _, rfl, hstep, -⟩ := eq_cons_of_unplacedAll hsteps
      obtain ⟨_, _, rfl, -⟩ := eq_node_of_unplaced hstep
      exact (h _ _ _ _ _ _ _ _ _ _ _ _ _ _ _ _ rfl).elim
    · exact agree_refl _

/-- A path is read alike wherever it stands. -/
theorem readPath_moved (scope : IriScope) {node node' : Node} (h : node.unplaced = node'.unplaced) :
    Agree Eq (readPath scope node) (readPath scope node') := by
  refine (readPath_unplaced scope node).trans ?_
  rw [h]
  exact (readPath_unplaced scope node').symm

/-- A verb is read alike wherever it stands. -/
theorem readVerb_moved (scope : IriScope) {node node' : Node} (h : node.unplaced = node'.unplaced) :
    Agree Eq (readVerb scope node) (readVerb scope node') := by
  have hpath := readPath_moved scope h
  obtain ⟨rule, start, text, children⟩ := node
  obtain ⟨rule', start', text', children'⟩ := node'
  injection h with hrule _ htext
  subst hrule htext
  unfold readVerb
  dsimp only [ParseTree.rule]
  split
  · exact agree_pure rfl
  · exact hpath.then fun _ => agree_pure rfl
  · exact agree_refuse _ _ _ _

/-! ## Patterns -/

mutual

/-- A subject or an object is read alike wherever it stands, with the patterns inside it. -/
theorem readPlace_moved (scope : IriScope) (inTemplate : Bool) (node node' : Node)
    (h : node.unplaced = node'.unplaced) :
    Agree Eq (readPlace scope inTemplate node) (readPlace scope inTemplate node') := by
  have hterm := readTerm_moved scope h
  match node, node' with
  | .node rule start text children, .node rule' start' text' children' =>
    injection h with hrule _ htext hchildren
    subst hrule htext
    unfold readPlace
    split
    · exact agree_refl _
    · exact agree_refl _
    · exact agree_refl _
    · exact agree_refl _
    · refine (agree_refl _).then fun place => ?_
      have hproperties := readProperties_moved scope inTemplate place children children' hchildren
      exact hproperties.then fun _ => agree_pure rfl
    · exact (readPlaces_moved scope inTemplate children children' hchildren).then
        fun _ => agree_refl _
    · exact hterm.then fun _ => agree_pure rfl

/-- The same for several nodes. -/
theorem readPlaces_moved (scope : IriScope) (inTemplate : Bool) (nodes nodes' : List Node)
    (h : unplacedAll nodes = unplacedAll nodes') :
    Agree Eq (readPlaces scope inTemplate nodes) (readPlaces scope inTemplate nodes') := by
  match nodes, nodes' with
  | [], [] => exact agree_refl _
  | node :: rest, node' :: rest' =>
    obtain ⟨hnode, hrest⟩ := List.cons.inj h
    unfold readPlaces
    refine (readPlace_moved scope inTemplate node node' hnode).then fun _ => ?_
    exact (readPlaces_moved scope inTemplate rest rest' hrest).then fun _ => agree_pure rfl

/-- The same for the properties of a subject. -/
theorem readProperties_moved (scope : IriScope) (inTemplate : Bool) (subject : Place)
    (nodes nodes' : List Node) (h : unplacedAll nodes = unplacedAll nodes') :
    Agree Eq (readProperties scope inTemplate subject nodes)
      (readProperties scope inTemplate subject nodes') := by
  match nodes, nodes' with
  | [], [] => exact agree_refl _
  | .node _ _ _ items :: _, .node _ _ _ items' :: _ =>
    injection (List.cons.inj h).1 with _ _ _ hitems
    unfold readProperties
    exact readVerbObjects_moved scope inTemplate subject items items' hitems

/-- The same for verbs with their objects. -/
theorem readVerbObjects_moved (scope : IriScope) (inTemplate : Bool) (subject : Place)
    (nodes nodes' : List Node) (h : unplacedAll nodes = unplacedAll nodes') :
    Agree Eq (readVerbObjects scope inTemplate subject nodes)
      (readVerbObjects scope inTemplate subject nodes') := by
  match nodes, nodes' with
  | [], [] => exact agree_refl _
  | [_], [_] => exact agree_refl _
  | [_], _ :: _ :: _ => cases (List.cons.inj h).2
  | _ :: _ :: _, [_] => cases (List.cons.inj h).2
  | verb :: .node _ _ _ objects :: rest, verb' :: .node _ _ _ objects' :: rest' =>
    obtain ⟨hverb, hmore⟩ := List.cons.inj h
    obtain ⟨hnode, hrest⟩ := List.cons.inj hmore
    injection hnode with _ _ _ hobjects
    unfold readVerbObjects
    refine (readVerb_moved scope hverb).then fun predicate => ?_
    refine (readObjects_moved scope inTemplate subject predicate objects objects'
      hobjects).then fun _ => ?_
    exact (readVerbObjects_moved scope inTemplate subject rest rest' hrest).then
      fun _ => agree_pure rfl

/-- The same for the objects of a verb. -/
theorem readObjects_moved (scope : IriScope) (inTemplate : Bool) (subject predicate : Place)
    (nodes nodes' : List Node) (h : unplacedAll nodes = unplacedAll nodes') :
    Agree Eq (readObjects scope inTemplate subject predicate nodes)
      (readObjects scope inTemplate subject predicate nodes') := by
  match nodes, nodes' with
  | [], [] => exact agree_refl _
  | node :: rest, node' :: rest' =>
    obtain ⟨hnode, hrest⟩ := List.cons.inj h
    unfold readObjects
    refine (readPlace_moved scope inTemplate node node' hnode).then fun _ => ?_
    exact (readObjects_moved scope inTemplate subject predicate rest rest' hrest).then
      fun _ => agree_pure rfl

end

/-- Blocks of patterns are read alike wherever they stand. -/
theorem readBlocks_moved (scope : IriScope) (inTemplate : Bool) {nodes nodes' : List Node}
    (h : unplacedAll nodes = unplacedAll nodes') :
    Agree Eq (readBlocks scope inTemplate nodes) (readBlocks scope inTemplate nodes') := by
  have hblock : ∀ node node' : Node, node.unplaced = node'.unplaced →
      Agree Eq (readSameSubject scope inTemplate node)
        (readSameSubject scope inTemplate node') := by
    intro node node' hnode
    have hchildren := unplacedAll_children hnode
    unfold readSameSubject
    split
    · rename_i hnone
      rw [hnone] at hchildren
      rw [eq_nil_of_unplacedAll hchildren.symm]
      exact agree_refl _
    · rename_i first rest hsome
      rw [hsome] at hchildren
      obtain ⟨first', rest', hsome', hfirst, hrest⟩ := eq_cons_of_unplacedAll hchildren.symm
      rw [hsome']
      refine (readPlace_moved scope inTemplate first first' hfirst.symm).then fun _ => ?_
      exact (readProperties_moved scope inTemplate _ rest rest' hrest.symm).then
        fun _ => agree_pure rfl
  exact (agree_mapM (forall₂_of_unplacedAll h) hblock).then fun _ => agree_pure rfl

/-- The triples of a template are read alike wherever they stand. -/
theorem readTemplate_moved (scope : IriScope) (inTemplate : Bool) {nodes nodes' : List Node}
    (h : unplacedAll nodes = unplacedAll nodes') :
    Agree Eq (readTemplate scope inTemplate nodes) (readTemplate scope inTemplate nodes') := by
  match nodes, nodes' with
  | [], [] => exact agree_refl _
  | triples :: _, triples' :: _ =>
    exact readBlocks_moved scope inTemplate (unplacedAll_children (List.cons.inj h).1)

/-! ## Inline data -/

/-- A value is read alike wherever it stands. -/
theorem readDatum_moved (scope : IriScope) {node node' : Node}
    (h : node.unplaced = node'.unplaced) :
    Agree Eq (readDatum scope node) (readDatum scope node') := by
  unfold readDatum
  rw [rule_eq_of_unplaced h]
  split
  · exact agree_pure rfl
  · exact (readTerm_moved scope h).map _

/-- A row of values does not depend on the places of its nodes. -/
theorem readRow_moved (scope : IriScope) (vars : List String) {node node' : Node}
    (h : node.unplaced = node'.unplaced) :
    Agree Eq (readRow scope vars node) (readRow scope vars node') := by
  have hvalues := forall₂_of_unplacedAll (unplacedAll_children h)
  unfold readRow
  refine (agree_mapM hvalues fun _ _ => readDatum_moved scope).then fun values => ?_
  split
  · exact agree_pure rfl
  · exact agree_refuse _ _ _ _

/-- The variables among nodes that are moved have the same names. -/
theorem namesOf_moved {nodes nodes' : List Node} (h : unplacedAll nodes = unplacedAll nodes') :
    namesOf nodes = namesOf nodes' := by
  have hvars := forall₂_filter (fun _ _ => rule_eq_of_unplaced) (· == .var)
    (forall₂_of_unplacedAll h)
  rw [← List.forall₂_eq_eq_eq]
  exact List.forall₂_map_left_iff.mpr (List.forall₂_map_right_iff.mpr
    (hvars.imp fun _ _ => variableName_eq_of_unplaced))

/-- Inline data are read alike wherever they stand. -/
theorem readDataBlock_moved (scope : IriScope) {node node' : Node}
    (h : node.unplaced = node'.unplaced) :
    Agree Eq (readDataBlock scope node) (readDataBlock scope node') := by
  have hchildren := unplacedAll_children h
  have hitems := forall₂_filter (fun _ _ => rule_eq_of_unplaced) (· != .var)
    (forall₂_of_unplacedAll hchildren)
  unfold readDataBlock
  dsimp only
  rw [namesOf_moved hchildren, rule_eq_of_unplaced h]
  split
  · refine (agree_mapM hitems fun _ _ hitem => ?_).then fun _ => agree_pure rfl
    exact (readDatum_moved scope hitem).then fun _ => agree_pure rfl
  · exact (agree_mapM hitems fun _ _ => readRow_moved scope _).then fun _ => agree_pure rfl

/-! ## Numbers and declarations -/

/-- A number of rows is read alike wherever it stands. -/
theorem readCount_moved {nodes nodes' : List Node} (h : unplacedAll nodes = unplacedAll nodes') :
    Agree Eq (readCount nodes) (readCount nodes') := by
  match nodes, nodes' with
  | [], [] => exact agree_refl _
  | node :: _, node' :: _ =>
    unfold readCount
    dsimp only
    rw [text_eq_of_unplaced (List.cons.inj h).1]
    split
    · exact agree_refl _
    · exact agree_refuse _ _ _ _

/-- Declarations are read alike wherever they stand. -/
theorem readPrologue_moved (scope : IriScope) {nodes nodes' : List Node}
    (h : List.Forall₂ (fun node node' : Node => node.unplaced = node'.unplaced) nodes nodes') :
    Agree Eq (readPrologue scope nodes) (readPrologue scope nodes') := by
  induction h generalizing scope with
  | nil => exact agree_refl _
  | @cons node node' rest rest' hnode _ ih =>
    have hchildren := forall₂_of_unplacedAll (unplacedAll_children hnode)
    unfold readPrologue
    rw [rule_eq_of_unplaced hnode]
    generalize node'.rule = rule
    generalize node.children = children at hchildren ⊢
    generalize node'.children = children' at hchildren ⊢
    split
    · -- the base
      cases hchildren with
      | cons hiri hrest =>
        cases hrest
        exact (agree_iri scope (sameToken_of_unplaced hiri)).then fun _ => ih _
    · -- a prefix
      cases hchildren with
      | cons hname hrest =>
        cases hrest with
        | cons hiri hrest =>
          cases hrest
          dsimp only
          rw [text_eq_of_unplaced hname]
          exact (agree_iri scope (sameToken_of_unplaced hiri)).then fun _ => ih _
    · rename_i hbase hdeclared
      split
      · cases hchildren with
        | cons _ hrest =>
          cases hrest
          exact (hbase _ rfl rfl).elim
      · cases hchildren with
        | cons _ hrest =>
          cases hrest with
          | cons _ hrest =>
            cases hrest
            exact (hdeclared _ _ rfl rfl).elim
      · exact ih _

end RdfStore.Query
