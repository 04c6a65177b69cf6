import RdfStore.Proofs.Query.Yields
import RdfStore.Proofs.Syntax.TokenTerms
import RdfStore.Query.Scope

/-!
# The places of patterns

What holds of every place that a node can denote holds of all places of the patterns that are
read from blocks of nodes. Outside templates the walk turns every blank node into a hidden
variable, so no block of patterns that is read as part of a group has a blank node of the
template kind.
-/

set_option autoImplicit false

namespace RdfStore.Query

open RdfStore.Peg RdfStore.Syntax

/-! ## Places -/

/-- All places of patterns have a property. -/
def AllPlaces (meets : Place → Prop) (patterns : List Pattern) : Prop :=
  ∀ p ∈ patterns, ∀ place ∈ p.places, meets place

/-- Places that are read from nodes with one property have another. -/
structure ReadsPlaces (scope : IriScope) (inTemplate : Bool) (formed : Node → Prop)
    (meets : Place → Prop) : Prop where
  children : ∀ node, formed node → ∀ child ∈ node.children, formed child
  var : ∀ node, formed node → node.rule = .var → meets (.var (variableName node))
  label : ∀ label, meets (blankPlace inTemplate label)
  iri : ∀ i : Iri, i.IsWellFormed → meets (.term (.iri i))
  term : ∀ node, formed node → Yields (readTerm scope node) fun t => meets (.term t)

section Walk

variable {scope : IriScope} {inTemplate : Bool} {formed : Node → Prop} {meets : Place → Prop}
  {patterns more : List Pattern} {s p o : Place}

/-- All places of two lists of patterns meet what those of each do. -/
theorem AllPlaces.append (h : AllPlaces meets patterns) (h' : AllPlaces meets more) :
    AllPlaces meets (patterns ++ more) :=
  fun p hp => (List.mem_append.mp hp).elim (h p) (h' p)

/-- All places meet a condition if the three of the first pattern do and those of the others. -/
theorem AllPlaces.cons (hs : meets s) (hp : meets p) (ho : meets o)
    (h : AllPlaces meets patterns) : AllPlaces meets (⟨s, p, o⟩ :: patterns) := by
  intro q hq place hplace
  rcases List.mem_cons.mp hq with rfl | hq
  · simp only [Pattern.places, List.mem_cons, List.not_mem_nil, or_false] at hplace
    rcases hplace with rfl | rfl | rfl
    · exact hs
    · exact hp
    · exact ho
  · exact h q hq place hplace

/-- No patterns have no places. -/
theorem allPlaces_nil : AllPlaces meets [] := fun _ hp => absurd hp List.not_mem_nil

/-- An address that is read is well formed. -/
theorem yields_iri (scope : IriScope) (node : Node) :
    Yields (take (scope.iri Symbol.terminal? node)) Iri.IsWellFormed := by
  cases h : scope.iri Symbol.terminal? node with
  | error e => exact yields_throw _
  | ok i => exact yields_pure (IriScope.isWellFormed_of_iri h)

/-- An anonymous place meets what such places have to meet. -/
theorem anonymousPlace_meets (h : ReadsPlaces scope inTemplate formed meets) :
    Yields (anonymousPlace inTemplate) meets := by
  intro n place k hrun
  cases hrun
  exact h.label _

/-- The cells of a list have what its items have. -/
theorem linkCells_meets (h : ReadsPlaces scope inTemplate formed meets)
    {cells : List (Place × Place)} {tail : Place} {done : List Pattern}
    (hcells : ∀ c ∈ cells, meets c.1 ∧ meets c.2) (htail : meets tail)
    (hdone : AllPlaces meets done) :
    meets (linkCells cells tail done).1 ∧ AllPlaces meets (linkCells cells tail done).2 := by
  obtain ⟨hfirst, hrest, -⟩ := Vocabulary.isWellFormed_rdf
  induction cells generalizing tail done with
  | nil => exact ⟨htail, hdone⟩
  | cons c before ih =>
    obtain ⟨cell, item⟩ := c
    obtain ⟨hcell, hitem⟩ := hcells (cell, item) List.mem_cons_self
    refine ih (fun c hc => hcells c (List.mem_cons_of_mem _ hc)) hcell (hdone.append ?_)
    exact .cons hcell (h.iri _ hfirst) hitem (.cons hcell (h.iri _ hrest) htail allPlaces_nil)

/-- The verb of a path is a well-formed address. -/
theorem readPath_isWellFormed (scope : IriScope) (node : Node) :
    Yields (readPath scope node) Iri.IsWellFormed := by
  fun_induction readPath scope node with
  | case1 => exact yields_pure Vocabulary.isWellFormed_rdf.2.2.2
  | case2 _ _ _ _ _ _ _ _ _ _ _ _ _ _ _ ih => exact ih
  | case3 => exact yields_iri scope _
  | case4 => exact yields_unsupported _
  | case5 => exact yields_unsupported _

/-- A verb is a variable or an IRI. -/
theorem readVerb_meets (h : ReadsPlaces scope inTemplate formed meets) {node : Node}
    (hnode : formed node) : Yields (readVerb scope node) meets := by
  unfold readVerb
  split
  · rename_i hrule
    exact yields_pure (h.var node hnode hrule)
  · exact (readPath_isWellFormed scope node).bind fun i hi => yields_pure (h.iri i hi)
  · exact yields_refuse node _

mutual

/-- A node denotes a place with the property and patterns over such places. -/
theorem readPlace_meets (h : ReadsPlaces scope inTemplate formed meets) (node : Node)
    (hnode : formed node) :
    Yields (readPlace scope inTemplate node) fun r => meets r.1 ∧ AllPlaces meets r.2 := by
  match node with
  | .node rule start text children =>
    have hchildren : ∀ child ∈ children, formed child := h.children _ hnode
    have hnil := h.iri _ Vocabulary.isWellFormed_rdf.2.2.1
    unfold readPlace
    split
    · exact yields_pure ⟨h.var _ hnode rfl, allPlaces_nil⟩
    · exact yields_pure ⟨h.label _, allPlaces_nil⟩
    · exact (anonymousPlace_meets h).bind fun place hplace => yields_pure ⟨hplace, allPlaces_nil⟩
    · exact yields_pure ⟨hnil, allPlaces_nil⟩
    · refine (anonymousPlace_meets h).bind fun place hplace => ?_
      refine (readProperties_meets h children hchildren hplace).bind fun patterns hpatterns => ?_
      exact yields_pure ⟨hplace, hpatterns⟩
    · refine (readPlaces_meets h children hchildren).bind fun read hread => ?_
      obtain ⟨items, inner⟩ := read
      refine (yields_mapM fun _ _ => anonymousPlace_meets h).bind fun cells hcells => ?_
      refine yields_pure (linkCells_meets h ?_ hnil hread.2)
      intro c hc
      obtain ⟨hcell, hitem⟩ := List.of_mem_zip (List.mem_reverse.mp hc)
      exact ⟨hcells c.1 hcell, hread.1 c.2 hitem⟩
    · exact (h.term _ hnode).bind fun _ hterm => yields_pure ⟨hterm, allPlaces_nil⟩

/-- The same for the places of several nodes. -/
theorem readPlaces_meets (h : ReadsPlaces scope inTemplate formed meets) (nodes : List Node)
    (hnodes : ∀ node ∈ nodes, formed node) :
    Yields (readPlaces scope inTemplate nodes) fun r =>
      (∀ place ∈ r.1, meets place) ∧ AllPlaces meets r.2 := by
  match nodes with
  | [] => exact yields_pure ⟨fun _ h => absurd h List.not_mem_nil, allPlaces_nil⟩
  | node :: rest =>
    have hrest : ∀ n ∈ rest, formed n := fun n hn => hnodes n (List.mem_cons_of_mem _ hn)
    unfold readPlaces
    refine (readPlace_meets h node (hnodes node List.mem_cons_self)).bind fun first hfirst => ?_
    refine (readPlaces_meets h rest hrest).bind fun others hothers => ?_
    refine yields_pure ⟨fun place hplace => ?_, hfirst.2.append hothers.2⟩
    rcases List.mem_cons.mp hplace with rfl | hplace
    · exact hfirst.1
    · exact hothers.1 place hplace

/-- The same for the properties of a subject. -/
theorem readProperties_meets (h : ReadsPlaces scope inTemplate formed meets) {subject : Place}
    (nodes : List Node) (hnodes : ∀ node ∈ nodes, formed node) (hs : meets subject) :
    Yields (readProperties scope inTemplate subject nodes) (AllPlaces meets) := by
  match nodes with
  | [] => exact yields_pure allPlaces_nil
  | .node _ _ _ items :: _ =>
    unfold readProperties
    exact readVerbObjects_meets h items (h.children _ (hnodes _ List.mem_cons_self)) hs

/-- The same for verbs with their objects. -/
theorem readVerbObjects_meets (h : ReadsPlaces scope inTemplate formed meets) {subject : Place}
    (nodes : List Node) (hnodes : ∀ node ∈ nodes, formed node) (hs : meets subject) :
    Yields (readVerbObjects scope inTemplate subject nodes) (AllPlaces meets) := by
  match nodes with
  | [] => exact yields_pure allPlaces_nil
  | [_] => exact yields_pure allPlaces_nil
  | verb :: .node _ _ _ objects :: rest =>
    have hobjects := h.children _ (hnodes _ (List.mem_cons_of_mem _ List.mem_cons_self))
    have hrest : ∀ n ∈ rest, formed n := fun n hn =>
      hnodes n (List.mem_cons_of_mem _ (List.mem_cons_of_mem _ hn))
    unfold readVerbObjects
    refine (readVerb_meets h (hnodes verb List.mem_cons_self)).bind fun predicate hp => ?_
    refine (readObjects_meets h objects hobjects hs hp).bind fun patterns hpatterns => ?_
    refine (readVerbObjects_meets h rest hrest hs).bind fun more hmore => ?_
    exact yields_pure (hpatterns.append hmore)

/-- The same for the objects of a verb. -/
theorem readObjects_meets (h : ReadsPlaces scope inTemplate formed meets)
    {subject predicate : Place} (nodes : List Node) (hnodes : ∀ node ∈ nodes, formed node)
    (hs : meets subject) (hp : meets predicate) :
    Yields (readObjects scope inTemplate subject predicate nodes) (AllPlaces meets) := by
  match nodes with
  | [] => exact yields_pure allPlaces_nil
  | node :: rest =>
    have hrest : ∀ n ∈ rest, formed n := fun n hn => hnodes n (List.mem_cons_of_mem _ hn)
    unfold readObjects
    refine (readPlace_meets h node (hnodes node List.mem_cons_self)).bind fun object hobject => ?_
    refine (readObjects_meets h rest hrest hs hp).bind fun more hmore => ?_
    exact yields_pure (hobject.2.append (.cons hs hp hobject.1 hmore))

end

/-- All places of the patterns of blocks have the property. -/
theorem readBlocks_meets (h : ReadsPlaces scope inTemplate formed meets) {nodes : List Node}
    (hnodes : ∀ node ∈ nodes, formed node) :
    Yields (readBlocks scope inTemplate nodes) (AllPlaces meets) := by
  have hblock : ∀ node ∈ nodes, Yields (readSameSubject scope inTemplate node)
      (AllPlaces meets) := by
    intro node hmem
    have hchildren := h.children node (hnodes node hmem)
    unfold readSameSubject
    split
    · exact yields_pure allPlaces_nil
    · rename_i first rest hcons
      rw [hcons] at hchildren
      have hrest : ∀ n ∈ rest, formed n := fun n hn => hchildren n (List.mem_cons_of_mem _ hn)
      refine (readPlace_meets h first (hchildren first List.mem_cons_self)).bind
        fun subject hsubject => ?_
      refine (readProperties_meets h rest hrest hsubject.1).bind fun patterns hpatterns => ?_
      exact yields_pure (hsubject.2.append hpatterns)
  refine (yields_mapM hblock).bind fun blocks hblocks => yields_pure fun p hp => ?_
  obtain ⟨block, hmem, hin⟩ := List.mem_flatten.mp hp
  exact hblocks block hmem p hin

end Walk

/-! ## Labels -/

/-- Outside templates no place that is read has a label. -/
theorem readsPlaces_unlabelled (scope : IriScope) :
    ReadsPlaces scope false (fun _ => True) fun place => place.label? = none where
  children _ _ _ _ := trivial
  var _ _ _ := rfl
  label _ := rfl
  iri _ _ := rfl
  term _ _ := (yields_true _).mono fun _ _ => rfl

/-- Blocks of patterns outside a template have no labels. -/
theorem readBlocks_unlabelled (scope : IriScope) (nodes : List Node) :
    Yields (readBlocks scope false nodes) fun patterns => labelsOf patterns = [] := by
  refine (readBlocks_meets (readsPlaces_unlabelled scope) fun _ _ => trivial).mono ?_
  intro patterns h
  refine List.flatMap_eq_nil_iff.mpr fun p hp => ?_
  exact List.filterMap_eq_nil_iff.mpr fun place hplace => h p hp place hplace

end RdfStore.Query
