import RdfStore.Proofs.Turtle.Scoping
import RdfStore.Proofs.Turtle.Shapes

/-!
# Collections of a document

Wherever a collection stands in a document that has a meaning, what the document says holds one
piece for it: what its items say, and behind that the statements of a list with one cell for each
item and nothing else. The collection denotes the first cell, or `rdf:nil` without items. Items are
terms of any kind, so the recursion is that of the meaning.
-/

set_option autoImplicit false

namespace RdfStore.Turtle

open RdfStore.Peg RdfStore.Syntax

variable {ν : Mark → BlankNode} {scope : IriScope} {ts us : List Triple} {place : Path}
  {node : Node}

/-- What a collection at a place says is among some statements, in some scope. -/
def IsLinked (ν : Mark → BlankNode) (ts : List Triple) (place : Path) (node : Node) : Prop :=
  ∃ scope, listing.IsLinked (cells ν place) (.iri Vocabulary.rdfNil) node.children.length
    (saidTerms ν scope place 0 node.children) (saidTerm ν scope place node) ts

/-- The rule of collections. -/
def isCollection (rule : Symbol) : Bool := rule == .collection

/-- All collections in a node are linked in some statements. -/
abbrev AreLinked (ν : Mark → BlankNode) (ts : List Triple) : Path → Node → Prop :=
  HoldsIn isCollection (IsLinked ν ts)

/-- So are those in the children of a node from a position on. -/
abbrev AreAllLinked (ν : Mark → BlankNode) (ts : List Triple) : Path → Nat → List Node → Prop :=
  HoldsBehind isCollection (IsLinked ν ts)

/-- A list that is linked in some triples is linked in more of them. -/
theorem IsLinked.mono (hts : ts <:+: us) (place : Path) (node : Node)
    (h : IsLinked ν ts place node) : IsLinked ν us place node := by
  obtain ⟨scope, h⟩ := h
  exact ⟨scope, h.mono hts⟩

/-- The collections of two parts of a node are linked in what both say. -/
theorem areAllLinked_cons {i : Nat} {nodes : List Node} (h : AreLinked ν ts (i :: place) node)
    (hmore : AreAllLinked ν us place (i + 1) nodes) :
    AreAllLinked ν (ts ++ us) place i (node :: nodes) :=
  holdsBehind_cons (h.mono (IsLinked.mono (infix_left ts us)))
    (hmore.mono (IsLinked.mono (infix_right ts us)))

/-- The rules that no collection is made of. -/
def isPlain : Symbol → Bool
  | .document | .triples | .predicateObjectList | .objectList | .blankNodePropertyList
  | .collection => false
  | _ => true

/-- The plain rules call only each other. -/
theorem isClosed_isPlain : grammar.IsClosed isPlain := by
  intro rule hrule
  cases rule with
  | terminal t => cases t <;> rfl
  | _ => first | rfl | cases hrule

/-- There is no collection in a plain node. -/
theorem areLinked_of_isPlain (hformed : IsFormed grammar node) (hplain : isPlain node.rule = true) :
    AreLinked ν ts place node := by
  refine holdsIn_of_isFree isClosed_isPlain (fun rule hrule => ?_) hformed hplain
  cases rule <;> first | rfl | cases hrule

/-! ## Terms and properties -/

/-- Each node of a list is a term. -/
theorem length_of_saidTerms {i : Nat} {nodes : List Node} {terms : List Term}
    (h : saidTerms ν scope place i nodes = .means terms ts) : terms.length = nodes.length := by
  induction nodes generalizing i terms ts with
  | nil =>
    cases h
    rfl
  | cons node nodes ih =>
    obtain ⟨term, _, _, -, hmore, -⟩ := Said.bind_eq_means h
    obtain ⟨rest, _, _, hrest, hterms, -⟩ := Said.bind_eq_means hmore
    cases hterms
    rw [List.length_cons, List.length_cons, ih hrest]

mutual

/-- What a node says for a term links the lists inside it. -/
theorem areLinked_of_saidTerm (place : Path) : ∀ node : Node, IsFormed grammar node →
    ∀ (term : Term) (ts : List Triple), saidTerm ν scope place node = .means term ts →
      AreLinked ν ts place node
  | .node rule start text children, hformed, term, ts, h => by
    cases hplain : isPlain rule with
    | true => exact areLinked_of_isPlain hformed hplain
    | false =>
      have hchildren := hformed.children
      unfold saidTerm at h
      split at h
      all_goals try cases hplain
      · -- a list of properties between brackets
        obtain ⟨_, us, vs, hproperties, hnode, rfl⟩ := Said.bind_eq_means h
        cases hnode
        obtain ⟨child, hone, hchild⟩ := children_of_propertyList hformed
        have hrules : ∀ node ∈ children, node.rule = .predicateObjectList := by
          simp only [hone, List.mem_singleton, forall_eq]
          exact hchild
        have hlinked := areAllLinked_of_saidProperties place 0 _ children hchildren hrules us
          hproperties (by simp [hone])
        exact (hlinked.mono (IsLinked.mono (infix_left us []))).holdsIn nofun
      · have hlist := listing.isLinked_of_bind h fun items inner hitems =>
          length_of_saidTerms hitems
        obtain ⟨items, inner, own, hitems, -, rfl⟩ := Said.bind_eq_means h
        have hinner := areAllLinked_of_saidTerms place 0 children hchildren items inner hitems
        refine (hinner.mono (IsLinked.mono (infix_left inner own))).holdsIn fun _ => ⟨scope, ?_⟩
        rw [saidTerm]
        exact hlist
      · cases h

/-- What nodes say for terms links the lists inside them. -/
theorem areAllLinked_of_saidTerms (place : Path) (i : Nat) : ∀ nodes : List Node,
    (∀ node ∈ nodes, IsFormed grammar node) → ∀ (terms : List Term) (ts : List Triple),
      saidTerms ν scope place i nodes = .means terms ts → AreAllLinked ν ts place i nodes
  | [], _, _, _, _ => holdsBehind_nil
  | node :: nodes, hformed, terms, ts, h => by
    obtain ⟨term, us, vs, hterm, hterms, rfl⟩ := Said.bind_eq_means h
    obtain ⟨rest, vs, _, hrest, hall, rfl⟩ := Said.bind_eq_means hterms
    cases hall
    have hfirst := areLinked_of_saidTerm (i :: place) node (hformed node List.mem_cons_self) _ _ hterm
    have hmore := areAllLinked_of_saidTerms place (i + 1) nodes
      (fun n hn => hformed n (List.mem_cons_of_mem node hn)) _ _ hrest
    rw [List.append_nil]
    exact areAllLinked_cons hfirst hmore

/-- What a list of properties says links the lists inside it. -/
theorem areAllLinked_of_saidProperties (place : Path) (i : Nat) (subject : Subject) :
    ∀ nodes : List Node, (∀ node ∈ nodes, IsFormed grammar node) →
      (∀ node ∈ nodes, node.rule = .predicateObjectList) → ∀ ts : List Triple,
        saidProperties ν scope place i subject nodes = .means () ts → nodes.length ≤ 1 →
          AreAllLinked ν ts place i nodes
  | [], _, _, _, _, _ => holdsBehind_nil
  | .node rule start text items :: rest, hformed, hrule, ts, h, hlength => by
    obtain rfl : rest = [] := List.length_eq_zero_iff.mp (by simpa using hlength)
    obtain rfl : rule = .predicateObjectList := hrule _ List.mem_cons_self
    have hlist := hformed _ List.mem_cons_self
    have hrules := hlist.mem_calls rfl fun r _ => manner_ne_silent r
    have hlinked := areAllLinked_of_saidVerbObjects (i :: place) 0 subject none items hlist.children
      hrules ts h
    exact holdsBehind_cons (hlinked.holdsIn nofun) holdsBehind_nil

/-- What verbs and their objects say links the lists inside them. -/
theorem areAllLinked_of_saidVerbObjects (place : Path) (i : Nat) (subject : Subject)
    (verb : Option Iri) : ∀ nodes : List Node, (∀ node ∈ nodes, IsFormed grammar node) →
      (∀ node ∈ nodes, node.rule ∈ (grammar.production .predicateObjectList).body.calls) →
        ∀ ts : List Triple, saidVerbObjects ν scope place i subject verb nodes = .means () ts →
          AreAllLinked ν ts place i nodes
  | [], _, _, _, _ => holdsBehind_nil
  | .node rule start text children :: rest, hformed, hrule, ts, h => by
    have hnode := hformed _ List.mem_cons_self
    have hmore := fun n hn => hformed n (List.mem_cons_of_mem _ hn)
    have hmoreRules := fun n hn => hrule n (List.mem_cons_of_mem _ hn)
    unfold saidVerbObjects at h
    split at h
    · cases verb with
      | none => cases h
      | some predicate =>
        obtain ⟨_, us, vs, hobjects, hrest, rfl⟩ := Said.bind_eq_means h
        have hfirst := areAllLinked_of_saidObjects (i :: place) 0 subject predicate children
          hnode.children us hobjects
        have hothers := areAllLinked_of_saidVerbObjects place (i + 1) subject (some predicate) rest
          hmore hmoreRules vs hrest
        exact areAllLinked_cons (hfirst.holdsIn nofun) hothers
    · exact holdsBehind_cons (areLinked_of_isPlain hnode rfl)
        (areAllLinked_of_saidVerbObjects place (i + 1) subject _ rest hmore hmoreRules ts h)
    · rename_i hobjects _
      obtain ⟨predicate, us, vs, -, hrest, rfl⟩ := Said.bind_eq_means h
      have hplain : isPlain rule = true := by
        have hcalls : ∀ r ∈ (grammar.production .predicateObjectList).body.calls,
            r = .objectList ∨ isPlain r = true := by decide
        exact (hcalls rule (hrule _ List.mem_cons_self)).resolve_left hobjects
      exact areAllLinked_cons (areLinked_of_isPlain hnode hplain)
        (areAllLinked_of_saidVerbObjects place (i + 1) subject _ rest hmore hmoreRules vs hrest)

/-- What objects say links the lists inside them. -/
theorem areAllLinked_of_saidObjects (place : Path) (i : Nat) (subject : Subject)
    (predicate : Iri) : ∀ nodes : List Node, (∀ node ∈ nodes, IsFormed grammar node) →
      ∀ ts : List Triple, saidObjects ν scope place i subject predicate nodes = .means () ts →
        AreAllLinked ν ts place i nodes
  | [], _, _, _ => holdsBehind_nil
  | node :: nodes, hformed, ts, h => by
    obtain ⟨object, us, vs, hobject, hobjects, rfl⟩ := Said.bind_eq_means h
    obtain ⟨_, ws, vs, -, hrest, rfl⟩ := Said.bind_eq_means hobjects
    have hfirst := areLinked_of_saidTerm (i :: place) node (hformed node List.mem_cons_self) _ _
      hobject
    have hmore := areAllLinked_of_saidObjects place (i + 1) subject predicate nodes
      (fun n hn => hformed n (List.mem_cons_of_mem node hn)) vs hrest
    exact areAllLinked_cons hfirst (hmore.mono (IsLinked.mono (infix_right ws vs)))

end

/-! ## Documents -/

/-- What a statement says links the lists inside it. -/
theorem areLinked_of_saidStatement {scope' : IriScope} (hformed : IsFormed grammar node)
    (hrule : node.rule ∈ statementRules)
    (h : saidStatement ν scope place node = .means scope' ts) : AreLinked ν ts place node := by
  obtain ⟨rule, start, text, children⟩ := node
  have hplain : rule = .triples ∨ isPlain rule = true := by
    have hcalls : ∀ r ∈ statementRules, r = .triples ∨ isPlain r = true := by decide
    exact hcalls rule hrule
  rcases hplain with rfl | hplain
  · obtain ⟨_, us, vs, htriples, hscope, rfl⟩ := Said.bind_eq_means h
    cases hscope
    obtain ⟨first, rest, rfl, -, hrest⟩ := children_of_triples hformed
    have hchildren := hformed.children
    obtain ⟨term, us, vs, hterm, hproperties, rfl⟩ := Said.bind_eq_means htriples
    have hfirst := areLinked_of_saidTerm (0 :: place) first (hchildren first List.mem_cons_self)
      _ _ hterm
    split at hproperties
    · rename_i subject _
      have hmore := areAllLinked_of_saidProperties place 1 subject rest
        (fun n hn => hchildren n (List.mem_cons_of_mem first hn))
        (by rcases hrest with rfl | ⟨list, rfl, hlist⟩ <;> simp [*]) vs hproperties
        (by rcases hrest with rfl | ⟨list, rfl, -⟩ <;> simp)
      have hall := (areAllLinked_cons hfirst hmore).mono (IsLinked.mono (infix_left _ []))
      exact hall.holdsIn nofun
    · cases hproperties
  · exact areLinked_of_isPlain hformed hplain

/-- All collections of a document are linked in what it states. -/
theorem areLinked_of_saidStatements {i : Nat} {nodes : List Node}
    (hformed : ∀ node ∈ nodes, IsFormed grammar node ∧ node.rule ∈ statementRules)
    (h : saidStatements ν i scope nodes = .means () ts) : AreAllLinked ν ts [] i nodes := by
  induction nodes generalizing i scope ts with
  | nil => exact holdsBehind_nil
  | cons node nodes ih =>
    obtain ⟨scope', us, vs, hfirst, hrest, rfl⟩ := Said.bind_eq_means h
    obtain ⟨hnode, hrule⟩ := hformed node List.mem_cons_self
    have hmore := ih (fun n hn => hformed n (List.mem_cons_of_mem node hn)) hrest
    exact areAllLinked_cons (areLinked_of_saidStatement hnode hrule hfirst) hmore

end RdfStore.Turtle
