import RdfStore.Proofs.Peg.Growth
import RdfStore.Proofs.Peg.Rename
import RdfStore.Proofs.Turtle.Parts
import RdfStore.Proofs.Turtle.ReadTerms

/-!
# The shape of documents

Which children the nodes of a matched document have. The reader walks over them without looking
whether they are there: the properties of a subject are verbs, each with its list of objects,
objects and items are terms, and a literal is a string with at most one suffix.
-/

set_option autoImplicit false

namespace RdfStore.Turtle

open RdfStore.Peg RdfStore.Syntax

variable {mode : Mode} {rules : List Symbol} {rule : Symbol} {start : Nat} {text : List Char}
  {children : List Node}

/-- No rule is silent. -/
theorem manner_ne_silent (r : Symbol) : (grammar.production r).manner ≠ .silent := by
  cases r with
  | terminal t => cases t <;> nofun
  | _ => nofun

/-- Outside of tokens every call leaves a node. -/
theorem isVisible_of_ne (h : mode ≠ .token) (r : Symbol) :
    (grammar.production r).manner.isVisible mode = true :=
  Manner.isVisible_of_ne (manner_ne_silent r) h

/-- The properties of a subject are verbs, each followed by a list of objects. -/
theorem arePairs_of_formed
    (h : IsFormed grammar (.node .predicateObjectList start text children)) :
    ArePairs Symbol.verb.calls .objectList (children.map ParseTree.rule) := by
  obtain ⟨mode, hmode, hleaves⟩ := h.leaves rfl
  exact hleaves.arePairs rfl rfl fun r _ => isVisible_of_ne hmode r

/-- Between brackets there is one list of properties. -/
theorem children_of_propertyList
    (h : IsFormed grammar (.node .blankNodePropertyList start text children)) :
    ∃ child, children = [child] ∧ child.rule = .predicateObjectList := by
  have hshape : children.map ParseTree.rule ∈ [[Symbol.predicateObjectList]] :=
    h.shape rfl (fun r _ => manner_ne_silent r) rfl
  exact eq_singleton_of_map_rule (List.mem_singleton.mp hshape)

/-- The items of a collection and the objects of a list are terms. -/
theorem children_of_terms (hrule : rule = .collection ∨ rule = .objectList)
    (h : IsFormed grammar (.node rule start text children)) :
    ∀ child ∈ children, child.rule ∈ Symbol.object.calls := by
  have hwords : (grammar.production rule).manner = .words := by
    rcases hrule with rfl | rfl <;> rfl
  have hcalls : ∀ r ∈ (grammar.production rule).body.calls, r ∈ Symbol.object.calls := by
    rcases hrule with rfl | rfl <;> decide
  intro child hchild
  exact hcalls _ (h.mem_calls hwords (fun r _ => manner_ne_silent r) child hchild)

/-- A block of triples has a subject, and properties unless its subject has some of its own. -/
theorem children_of_triples (h : IsFormed grammar (.node .triples start text children)) :
    ∃ first rest, children = first :: rest ∧
      (first.rule = .blankNodePropertyList ∨ first.rule ∈ Symbol.subject.calls) ∧
      (rest = [] ∨ ∃ list, rest = [list] ∧ list.rule = .predicateObjectList) := by
  have hshape : children.map ParseTree.rule ∈
      [[Symbol.blankNodePropertyList, .predicateObjectList], [.blankNodePropertyList]] ++
        Symbol.subject.calls.map fun r => [r, .predicateObjectList] :=
    h.shape rfl (fun r _ => manner_ne_silent r) rfl
  rcases List.mem_append.mp hshape with hown | hother
  · simp only [List.mem_cons, List.not_mem_nil, or_false] at hown
    rcases hown with hpair | hone
    · obtain ⟨first, list, rfl, hfirst, hlist⟩ := eq_pair_of_map_rule hpair
      exact ⟨first, [list], rfl, .inl hfirst, .inr ⟨list, rfl, hlist⟩⟩
    · obtain ⟨first, rfl, hfirst⟩ := eq_singleton_of_map_rule hone
      exact ⟨first, [], rfl, .inl hfirst, .inl rfl⟩
  · obtain ⟨r, hr, hpair⟩ := List.mem_map.mp hother
    obtain ⟨first, list, rfl, hfirst, hlist⟩ := eq_pair_of_map_rule hpair.symm
    exact ⟨first, [list], rfl, .inr (hfirst ▸ hr), .inr ⟨list, rfl, hlist⟩⟩

/-- The rules that can follow the string of a literal. -/
def suffixRules : List Symbol := .terminal .languageTag :: Symbol.iri.calls

/-- A literal is a string, with a language tag or an IRI behind it if there is more. -/
theorem children_of_literal (h : IsFormed grammar (.node .literal start text children)) :
    ∃ string rest, children = string :: rest ∧
      string.rule ∈ (Terminal.anyString Symbol.terminal).calls ∧
      (rest = [] ∨ ∃ suffix, rest = [suffix] ∧ suffix.rule ∈ suffixRules) := by
  have hshape : children.map ParseTree.rule ∈
      (Terminal.anyString Symbol.terminal).calls.flatMap fun r =>
        (suffixRules.map fun r' => [r, r']) ++ [[r]] :=
    h.shape rfl (fun r _ => manner_ne_silent r) rfl
  obtain ⟨r, hr, hshape⟩ := List.mem_flatMap.mp hshape
  rcases List.mem_append.mp hshape with hpair | hone
  · obtain ⟨r', hr', hpair⟩ := List.mem_map.mp hpair
    obtain ⟨string, suffix, rfl, hstring, hsuffix⟩ := eq_pair_of_map_rule hpair.symm
    exact ⟨string, [suffix], rfl, hstring ▸ hr, .inr ⟨suffix, rfl, hsuffix ▸ hr'⟩⟩
  · obtain ⟨string, rfl, hstring⟩ := eq_singleton_of_map_rule (List.mem_singleton.mp hone)
    exact ⟨string, [], rfl, hstring ▸ hr, .inl rfl⟩

/-- A directive holds an IRI, behind the name of a prefix if it defines one. -/
theorem children_of_directive (h : IsFormed grammar (.node rule start text children)) :
    (rule = .prefixDirective ∨ rule = .sparqlPrefix →
      ∃ name iri, children = [name, iri] ∧ name.rule = .terminal .prefixedSpace ∧
        iri.rule = .terminal .iriRef) ∧
    (rule = .baseDirective ∨ rule = .sparqlBase →
      ∃ iri, children = [iri] ∧ iri.rule = .terminal .iriRef) := by
  have hsilent := fun r (_ : r ∈ (grammar.production rule).body.calls) => manner_ne_silent r
  constructor
  · intro hrule
    have hshape : children.map ParseTree.rule ∈
        [[Symbol.terminal .prefixedSpace, .terminal .iriRef]] := by
      rcases hrule with rfl | rfl <;> exact h.shape rfl hsilent rfl
    exact eq_pair_of_map_rule (List.mem_singleton.mp hshape)
  · intro hrule
    have hshape : children.map ParseTree.rule ∈ [[Symbol.terminal .iriRef]] := by
      rcases hrule with rfl | rfl <;> exact h.shape rfl hsilent rfl
    exact eq_singleton_of_map_rule (List.mem_singleton.mp hshape)

/-- The rules of statements. -/
def statementRules : List Symbol := (grammar.production .document).body.calls

/-- The statements of a matched document have grown by their rules: they are directives, blocks of
triples and the end of the text. -/
theorem statements_of_parse {cs : List Char} {nodes : List Node}
    (h : parseDocument cs = .ok nodes) :
    ∀ node ∈ statementsOf nodes, IsFormed grammar node ∧ IsGrown grammar node ∧
      node.rule ∈ statementRules := by
  obtain ⟨⟨r, start, text, children⟩, rfl, hrule, hformed, hgrown⟩ :=
    grammar.exists_root_of_parse isGuarded_grammar rfl h
  obtain rfl : r = .document := hrule
  intro child hchild
  obtain ⟨root, hroot, hchild⟩ := List.mem_flatMap.mp hchild
  obtain rfl := List.mem_singleton.mp hroot
  refine ⟨hformed.children child hchild, hgrown.children child hchild, ?_⟩
  exact hformed.mem_calls rfl (fun r _ => manner_ne_silent r) child hchild

end RdfStore.Turtle
