import RdfStore.Proofs.Query.WellFormed

/-!
# Graphs without a template

A query for a graph may leave out its template: the triples of its pattern are the template then.
Such a query has its patterns twice, and no place in either copy is a blank node of a template,
because both are read as a pattern.
-/

set_option autoImplicit false

namespace RdfStore.Query

open RdfStore.Peg RdfStore.Syntax

/-! ## Texts of this form -/

/-- The node of the form of a query, after that of its prologue. -/
def formNode? (text : String) : Option Node :=
  match parseQuery text.toList with
  | .ok nodes => ((nodes.flatMap ParseTree.children).drop 1).head?
  | .error _ => none

/-- A node of a query for a graph without a template of its own. -/
def isShort (node : Node) : Bool :=
  node.rule == .constructQuery && !node.children.any fun child => child.rule == .template

/-- A text that asks for a graph and has no template of its own. -/
def isShortGraph (text : String) : Bool := (formNode? text).any isShort

/-- The group of nothing but patterns. -/
def patternsOnly (patterns : List Pattern) : Group :=
  if patterns.isEmpty then .empty else .mk [.triples patterns]

/-- The triples that stand for the pattern are read as these patterns, for some prefixes and from
some number of the next blank node on. -/
def Writes (part : Node) (patterns : List Pattern) : Prop :=
  ∃ scope n k, (readTemplate scope false part.children).run.run n = (.ok patterns, k)

/-- A query has the patterns that its node writes between braces as its template and as all of its
pattern. -/
structure Shares (node : Node) (q : Query) (patterns : List Pattern) : Prop where
  written : ∃ part ∈ node.children, part.rule = .templateAsPattern ∧ Writes part patterns
  form : q.form = .construct patterns
  pattern : q.pattern = patternsOnly patterns

/-- What is written as a pattern has no labels. -/
theorem Writes.unlabelled {part : Node} {patterns : List Pattern} (h : Writes part patterns) :
    labelsOf patterns = [] := by
  obtain ⟨scope, n, k, hrun⟩ := h
  have hread : Yields (readTemplate scope false part.children) fun found =>
      labelsOf found = [] := by
    unfold readTemplate
    split
    · exact yields_pure rfl
    · exact readBlocks_unlabelled scope _
  exact hread n patterns k hrun

/-- What is shared by a template and a pattern has no labels. -/
theorem Shares.unlabelled {node : Node} {q : Query} {patterns : List Pattern}
    (h : Shares node q patterns) : labelsOf patterns = [] := by
  obtain ⟨_, -, -, hwrites⟩ := h.written
  exact hwrites.unlabelled

/-! ## Reading them -/

/-- Without a template of its own, a graph has data sets, triples between braces and modifiers. -/
theorem rules_of_isShort {node : Node} (h : IsFormed grammar node) (hshort : isShort node = true) :
    ∃ datasets, node.children.map ParseTree.rule = datasets ++ [.templateAsPattern, .modifiers] ∧
      ∀ r ∈ datasets, r = .dataset := by
  obtain ⟨hrule, hnone⟩ := Bool.and_eq_true_iff.mp hshort
  have hrule : node.rule = .constructQuery := eq_of_beq hrule
  have hnone : Symbol.template ∉ node.children.map ParseTree.rule := by simpa using hnone
  cases h with
  | @node _ _ _ children mode hvisible hleaves _ =>
    cases hrule
    show ∃ datasets, children.map ParseTree.rule = _ ∧ _
    change Symbol.template ∉ children.map ParseTree.rule at hnone
    generalize children.map ParseTree.rule = rules at hleaves hnone ⊢
    cases hleaves with
    | seq hkeyword hleaves =>
      cases hkeyword
      cases hleaves with
      | @seq _ _ _ front last hforms hmodifiers =>
        rw [hmodifiers.of_visible hvisible] at hnone ⊢
        cases hforms with
        | left hown =>
          cases hown with
          | seq htemplate hrest =>
            rw [htemplate.of_visible hvisible] at hnone
            exact absurd List.mem_cons_self hnone
        | right hshared =>
          cases hshared with
          | @seq _ _ _ datasets _ hdatasets hrest =>
            cases hrest with
            | seq hwhere hrest =>
              cases hwhere
              cases hrest with
              | seq hopen hrest =>
                cases hopen
                cases hrest with
                | seq hpart hclose =>
                  cases hclose
                  rw [hpart.of_visible hvisible]
                  refine ⟨datasets, by simp, fun r hr => ?_⟩
                  have hcalls := hdatasets.mem_calls (fun r hr => by
                    rw [List.mem_singleton.mp hr]
                    exact hvisible) r hr
                  exact List.mem_singleton.mp hcalls

/-- So its nodes are those of data sets, of the triples and of the modifiers. -/
theorem children_of_isShort {node : Node} (h : IsFormed grammar node)
    (hshort : isShort node = true) :
    ∃ datasets part modifiers, node.children = datasets ++ [part, modifiers] ∧
      (∀ child ∈ datasets, child.rule = .dataset) ∧ part.rule = .templateAsPattern ∧
      modifiers.rule = .modifiers := by
  obtain ⟨rules, hrules, hdatasets⟩ := rules_of_isShort h hshort
  obtain ⟨datasets, rest, hchildren, hfront, hrest⟩ := List.map_eq_append_iff.mp hrules
  obtain ⟨part, rest, rfl, hpart, hrest⟩ := List.map_eq_cons_iff.mp hrest
  obtain ⟨modifiers, rest, rfl, hmodifiers, hrest⟩ := List.map_eq_cons_iff.mp hrest
  cases List.map_eq_nil_iff.mp hrest
  refine ⟨datasets, part, modifiers, hchildren, fun child hchild => ?_, hpart, hmodifiers⟩
  exact hdatasets _ (hfront ▸ List.mem_map_of_mem hchild)

/-- Every result of a walk comes from some run of it. -/
theorem yields_run {α : Type} (walk : ReaderM α) :
    Yields walk fun a => ∃ n k, walk.run.run n = (.ok a, k) := fun n _ k hrun => ⟨n, k, hrun⟩

/-- The patterns in the body of a query are written in a node, in both places. -/
def Body.Shares (part : Node) (body : Body) : Prop :=
  Writes part body.template ∧ body.pattern = patternsOnly body.template

/-- The short form of a construction shares its triples between the template and the pattern. -/
theorem readParts_short (scope : IriScope) {datasets : List Node} {part modifiers : Node}
    (hdatasets : ∀ child ∈ datasets, child.rule = .dataset)
    (hpart : part.rule = .templateAsPattern) (hmodifiers : modifiers.rule = .modifiers) :
    Yields ((datasets ++ [part, modifiers]).foldlM (readPart scope) ⟨[], .empty, .none⟩)
      (Body.Shares part) := by
  cases datasets with
  | cons first rest =>
    have hfirst : ∀ body, readPart scope body first = unsupported .datasets := by
      intro body
      unfold readPart
      rw [hdatasets first List.mem_cons_self]
    rw [List.cons_append, List.foldlM_cons, hfirst]
    exact (yields_unsupported (p := fun _ => False) _).bind fun _ h => h.elim
  | nil =>
    rw [List.nil_append, List.foldlM_cons]
    refine Yields.bind (p := Body.Shares part) ?_ fun body hbody => ?_
    · unfold readPart
      rw [hpart]
      exact (yields_run _).bind fun triples hrun => yields_pure ⟨⟨scope, hrun⟩, rfl⟩
    · refine yields_foldlM hbody fun done child hchild hdone => ?_
      cases List.mem_singleton.mp hchild
      unfold readPart
      rw [hmodifiers]
      exact (yields_true _).bind fun _ _ => yields_pure hdone

/-- A graph without a template of its own is read with its patterns in both places. -/
theorem readForm_short (scope : IriScope) {data : Option DataBlock} {node : Node}
    (h : IsFormed grammar node) (hshort : isShort node = true) :
    Yields (readForm scope data node) fun q => ∃ patterns, Shares node q patterns := by
  have hrule : node.rule = .constructQuery := eq_of_beq (Bool.and_eq_true_iff.mp hshort).1
  obtain ⟨datasets, part, modifiers, hchildren, hdatasets, hpart, hmodifiers⟩ :=
    children_of_isShort h hshort
  have hin : part ∈ node.children := by simp [hchildren]
  unfold readForm
  rw [hrule, hchildren]
  refine (readParts_short scope hdatasets hpart hmodifiers).bind fun body hbody => ?_
  exact yields_pure ⟨body.template, ⟨part, hin, hpart, hbody.1⟩, rfl, hbody.2⟩

/-- A text that asks for a graph and has no template of its own is read with its patterns in both
places. -/
theorem read_short {text : String} {q : Query} (hshort : isShortGraph text = true)
    (hread : read text = .ok q) :
    ∃ node patterns, formNode? text = some node ∧ Shares node q patterns := by
  obtain ⟨nodes, k, hparse, hrun⟩ := exists_run_of_read hread
  have hformed := areFormed_of_parse hparse
  unfold isShortGraph at hshort
  obtain ⟨node, hnode, hshort⟩ := (Option.any_eq_true _ _).mp hshort
  have hfirst : ((nodes.flatMap ParseTree.children).drop 1).head? = some node := by
    unfold formNode? at hnode
    rwa [hparse] at hnode
  generalize nodes.flatMap ParseTree.children = parts at hrun hformed hfirst
  obtain ⟨rest, hparts⟩ := List.head?_eq_some_iff.mp hfirst
  have hin : IsFormed grammar node :=
    hformed node (List.mem_of_mem_drop (hparts ▸ List.mem_cons_self))
  have hwalk : Yields (readParts parts) fun q => ∃ patterns, Shares node q patterns := by
    unfold readParts
    rw [hparts]
    refine (yields_true _).bind fun scope _ => ?_
    extract_lets walk
    have hwalk : ∀ data, Yields (walk data) fun q => ∃ patterns, Shares node q patterns := by
      intro data
      refine (readForm_short scope hin hshort).bind fun found hfound => ?_
      split
      · exact yields_throw _
      · exact yields_pure hfound
    split
    · exact (yields_true _).bind fun data _ => hwalk data
    · refine (yields_true _).bind fun block _ => ?_
      exact (yields_true _).bind fun data _ => hwalk data
  obtain ⟨patterns, hshares⟩ := hwalk 0 q k hrun
  exact ⟨node, patterns, hnode, hshares⟩

end RdfStore.Query
