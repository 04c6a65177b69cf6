import RdfStore.Proofs.Eval.SameTriples

/-!
# Graphs made from templates

A template makes one instance of each of its patterns at each solution; the graph has those
instances that are triples, each once. A label of the template stands for a new node at every
solution that comes to it. The nodes are numbered on through all solutions, past the names that the
store knows, so different labels and different solutions never share one and none is in the store.
What is left out, because a variable is unbound or a term cannot stand where it would, changes
nothing of this.
-/

set_option autoImplicit false

namespace RdfStore.Eval

open Query

/-! ## Instances -/

section Instances

variable (names : Slots) (row : Solution) (node : String → BlankNode)

/-- The term of a place at a solution, with a node for each label. -/
def placeTerm : Place → Option Term
  | .term t => some t
  | .var name => names.value? row name
  | .blank label => some (.blank (node label))

/-- The instance of a pattern at a solution: the triple of the terms of its places, if all three
have one and each can stand at its position. -/
def instance? (p : Pattern) : Option Triple := do
  let subject ← placeTerm names row node p.subject
  let predicate ← placeTerm names row node p.predicate
  let object ← placeTerm names row node p.object
  Triple.ofTerms? subject predicate object

/-- The terms of places up to the first that has none. -/
def placeTerms : List Place → List Term
  | [] => []
  | place :: rest =>
    match placeTerm names row node place with
    | none => []
    | some t => t :: placeTerms rest

/-- A pattern has an instance when all its places have terms that form a triple. -/
theorem tripleOf?_placeTerms (p : Pattern) :
    tripleOf? (placeTerms names row node p.places) = instance? names row node p := by
  unfold Pattern.places instance?
  simp only [placeTerms]
  cases placeTerm names row node p.subject with
  | none => rfl
  | some subject =>
    cases placeTerm names row node p.predicate with
    | none => rfl
    | some predicate => cases placeTerm names row node p.object <;> rfl

end Instances

/-- A solution comes to a label among places if all variables before it have terms. -/
def ComesTo (names : Slots) (row : Solution) (places : List Place) (label : String) : Prop :=
  ∃ before after, places = before ++ .blank label :: after ∧
    ∀ name, .var name ∈ before → (names.value? row name).isSome = true

/-- A solution uses a label of a template if it comes to it in some pattern. -/
def UsesLabel (names : Slots) (template : List Pattern) (row : Solution) (label : String) : Prop :=
  ∃ p ∈ template, ComesTo names row p.places label

/-- A solution that comes to a label after a place comes to it from there, and the place has a
term, whatever the nodes. -/
theorem ComesTo.cases {names : Slots} {row : Solution} {place : Place} {rest : List Place}
    {label : String} (h : ComesTo names row (place :: rest) label) :
    place = .blank label ∨
      ComesTo names row rest label ∧ ∀ node, (placeTerm names row node place).isSome = true := by
  obtain ⟨before, after, hplaces, hbound⟩ := h
  cases before with
  | nil => exact Or.inl (List.cons.inj hplaces).1
  | cons first before =>
    obtain ⟨rfl, hrest⟩ := List.cons.inj hplaces
    refine Or.inr ⟨⟨before, after, hrest, fun name hname => ?_⟩, fun node => ?_⟩
    · exact hbound name (List.mem_cons_of_mem _ hname)
    · cases place with
      | var name => exact hbound name List.mem_cons_self
      | term _ | blank _ => rfl

/-- All places of a pattern with an instance have terms, so the solution comes to all its labels. -/
theorem usesLabel_of_instance? {names : Slots} {row : Solution} {node : String → BlankNode}
    {template : List Pattern} {p : Pattern} {t : Triple} {label : String} (hp : p ∈ template)
    (hinstance : instance? names row node p = some t) (hlabel : .blank label ∈ p.places) :
    UsesLabel names template row label := by
  obtain ⟨before, after, hplaces⟩ := List.append_of_mem hlabel
  refine ⟨p, hp, before, after, hplaces, fun name hname => ?_⟩
  have hvar : .var name ∈ p.places := hplaces ▸ List.mem_append_left _ hname
  unfold instance? at hinstance
  obtain ⟨subject, hsubject, hinstance⟩ := Option.bind_eq_some_iff.mp hinstance
  obtain ⟨predicate, hpredicate, hinstance⟩ := Option.bind_eq_some_iff.mp hinstance
  obtain ⟨object, hobject, -⟩ := Option.bind_eq_some_iff.mp hinstance
  have hterm : ∀ place ∈ p.places, (placeTerm names row node place).isSome = true := by
    unfold Pattern.places
    simp [hsubject, hpredicate, hobject]
  exact hterm _ hvar

/-- Every solution comes to a label at the front of a template. -/
theorem usesLabel_front {names : Slots} {row : Solution} {label : String} {predicate object : Place}
    {rest : List Pattern} :
    UsesLabel names (⟨.blank label, predicate, object⟩ :: rest) row label :=
  ⟨_, List.mem_cons_self, [], [predicate, object], rfl, fun _ h => absurd h List.not_mem_nil⟩

/-! ## Free names -/

/-- The node of a number. -/
def numbered (n : Nat) : BlankNode := ⟨"c" ++ toString n⟩

variable {s : Store}

/-- The search passes known names only, and when it ends in a known name it has tried all. -/
theorem freeName_spec (s : Store) (fuel counter : Nat) :
    ∃ n, counter ≤ n ∧ freeName s fuel counter = (numbered n, n + 1) ∧
      (∀ k, counter ≤ k → k < n → s.containsTerm (.blank (numbered k)) = true) ∧
      (s.containsTerm (.blank (numbered n)) = true → n = counter + fuel) := by
  induction fuel generalizing counter with
  | zero => exact ⟨counter, Nat.le_refl _, rfl, fun k hk hlt => by omega, fun _ => rfl⟩
  | succ fuel ih =>
    by_cases hknown : s.containsTerm (.blank (numbered counter)) = true
    · obtain ⟨n, hn, hfree, hpassed, hlast⟩ := ih (counter + 1)
      refine ⟨n, by omega, ?_, fun k hk hlt => ?_, fun h => ?_⟩
      · exact (if_pos hknown).trans hfree
      · rcases Nat.eq_or_lt_of_le hk with rfl | hk
        · exact hknown
        · exact hpassed k hk hlt
      · have := hlast h
        omega
    · refine ⟨counter, Nat.le_refl _, if_neg hknown, fun k hk hlt => by omega, fun h => ?_⟩
      exact absurd h hknown

/-- One of as many names as there are terms, and one more, is free. -/
theorem freeName_free (hs : s.IsCoherent) (counter : Nat) :
    ∃ n, counter ≤ n ∧ freeName s s.termCount counter = (numbered n, n + 1) ∧
      s.containsTerm (.blank (numbered n)) = false := by
  obtain ⟨n, hn, hfree, hpassed, hlast⟩ := freeName_spec s s.termCount counter
  refine ⟨n, hn, hfree, ?_⟩
  rw [Bool.eq_false_iff]
  intro hknown
  -- otherwise more different names are known than there are terms
  let tried := (List.range' counter (s.termCount + 1)).map fun k => Term.blank (numbered k)
  have hdistinct : tried.Nodup :=
    List.pairwise_map.mpr <| (List.nodup_range' 1).imp fun hne heq =>
      hne (numbered_injective (Term.blank.inj heq))
  have hall : ∀ x ∈ tried, (s.dictionary.id? x).isSome = true := by
    intro x hx
    obtain ⟨k, hk, rfl⟩ := List.mem_map.mp hx
    rw [List.mem_range'_1] at hk
    have hend := hlast hknown
    rcases Nat.lt_or_ge k n with hlt | hge
    · exact hpassed k hk.1 hlt
    · have : k = n := by omega
      subst this
      exact hknown
  have hle := Dictionary.length_le_size hs.dictionary hdistinct hall
  rw [List.length_map, List.length_range'] at hle
  exact absurd hle (Nat.not_succ_le_self _)

/-! ## Nodes of labels -/

namespace Minting

/-- The node of a label; a label without one is its own. -/
def node (m : Minting) (label : String) : BlankNode := (m.nodes.lookup label).getD ⟨label⟩

/-- A label has a node. -/
def Knows (m : Minting) (label : String) : Prop := ∃ new, m.nodes.lookup label = some new

/-- Labels keep their nodes. -/
def IsKeptBy (m m' : Minting) : Prop :=
  ∀ label new, m.nodes.lookup label = some new → m'.nodes.lookup label = some new

/-- Different labels have different nodes that the store does not know, numbered from `base` to
below the counter. -/
structure IsSound (s : Store) (base : Nat) (m : Minting) : Prop where
  base_le : base ≤ m.counter
  counted : ∀ label new, m.nodes.lookup label = some new →
    ∃ n, base ≤ n ∧ n < m.counter ∧ new = numbered n
  unknown : ∀ label new, m.nodes.lookup label = some new → s.containsTerm (.blank new) = false
  injective : ∀ a b new, m.nodes.lookup a = some new → m.nodes.lookup b = some new → a = b

/-- Before anything is minted the names that are given are sound. -/
theorem isSound_start (s : Store) (counter : Nat) : IsSound s counter ⟨counter, []⟩ where
  base_le := Nat.le_refl _
  counted _ _ h := nomatch h
  unknown _ _ h := nomatch h
  injective _ _ _ h := nomatch h

/-- The node of a label is the one that was entered for it. -/
theorem node_of_lookup {m : Minting} {label : String} {new : BlankNode}
    (h : m.nodes.lookup label = some new) : m.node label = new := by
  unfold node
  rw [h]
  rfl

/-- A known label is entered with its node. -/
theorem Knows.lookup_eq {m : Minting} {label : String} (h : m.Knows label) :
    m.nodes.lookup label = some (m.node label) := by
  obtain ⟨new, hnew⟩ := h
  rw [hnew, node_of_lookup hnew]

/-- Some labels have got nodes, and those that had one keep it. -/
structure Extends (s : Store) (base : Nat) (m m' : Minting) : Prop where
  sound : IsSound s base m'
  kept : m.IsKeptBy m'

/-- Sound names extend themselves. -/
theorem Extends.refl {base : Nat} {m : Minting} (h : IsSound s base m) : Extends s base m m :=
  ⟨h, fun _ _ hnew => hnew⟩

/-- What extends an extension extends the first. -/
theorem Extends.trans {base : Nat} {m m' m'' : Minting} (h : Extends s base m m')
    (h' : Extends s base m' m'') : Extends s base m m'' :=
  ⟨h'.sound, fun label new hnew => h'.kept label new (h.kept label new hnew)⟩

/-- An extension knows the labels that were known. -/
theorem Extends.knows {base : Nat} {m m' : Minting} (h : Extends s base m m') {label : String}
    (hlabel : m.Knows label) : m'.Knows label :=
  hlabel.imp fun new hnew => h.kept label new hnew

end Minting

open Minting (IsSound Extends)

variable {base : Nat} {m : Minting}

/-- A free name in front keeps all that holds of the nodes of labels. -/
theorem Minting.IsSound.cons (h : IsSound s base m) (label : String) {n : Nat}
    (hn : m.counter ≤ n) (hfree : s.containsTerm (.blank (numbered n)) = false) :
    IsSound s base ⟨n + 1, (label, numbered n) :: m.nodes⟩ := by
  -- the free name was not given before, because its number is past the counter
  have hold : ∀ a new, m.nodes.lookup a = some new → new ≠ numbered n := by
    rintro a new ha rfl
    obtain ⟨k, -, hk, heq⟩ := h.counted a _ ha
    have := numbered_injective heq
    omega
  refine ⟨Nat.le_trans h.base_le (Nat.le_succ_of_le hn), fun a new ha => ?_, fun a new ha => ?_,
    lookup_cons_injective h.injective hold⟩
  · rcases lookup_cons_cases ha with ⟨-, rfl⟩ | ha
    · exact ⟨n, Nat.le_trans h.base_le hn, Nat.lt_succ_self n, rfl⟩
    · obtain ⟨k, hbase, hk, hnew⟩ := h.counted a new ha
      exact ⟨k, hbase, Nat.lt_of_lt_of_le hk (Nat.le_succ_of_le hn), hnew⟩
  · rcases lookup_cons_cases ha with ⟨-, rfl⟩ | ha
    · exact hfree
    · exact h.unknown a new ha

/-- Minting a label gives it a node, or keeps the one it has. -/
theorem mint_spec (hs : s.IsCoherent) (h : IsSound s base m) (label : String) :
    Extends s base m (mint s m label).2 ∧
      (mint s m label).2.nodes.lookup label = some (mint s m label).1 := by
  unfold mint
  cases hlookup : m.nodes.lookup label with
  | some new => exact ⟨.refl h, hlookup⟩
  | none =>
    obtain ⟨n, hn, hname, hfree⟩ := freeName_free hs m.counter
    dsimp only
    rw [hname]
    exact ⟨⟨h.cons label hn hfree, fun a new ha => lookup_cons_of_lookup hlookup ha⟩,
      List.lookup_cons_self⟩

/-! ## Instances of a template -/

variable {env : Env} (hs : env.store.IsCoherent) (row : Solution)
include hs

/-- A place gives its term, under nodes that keep those it has left. -/
theorem instantiatePlace_spec (h : IsSound env.store base m) (place : Place) :
    Extends env.store base m (instantiatePlace env row m place).2 ∧
      (∀ label, place = .blank label → (instantiatePlace env row m place).2.Knows label) ∧
      ∀ last : Minting, (instantiatePlace env row m place).2.IsKeptBy last →
        (instantiatePlace env row m place).1 = placeTerm env.names row last.node place := by
  cases place with
  | term t => exact ⟨.refl h, fun _ hb => (nomatch hb), fun _ _ => rfl⟩
  | var name => exact ⟨.refl h, fun _ hb => (nomatch hb), fun _ _ => rfl⟩
  | blank label =>
    obtain ⟨hextends, hnew⟩ := mint_spec hs h label
    refine ⟨hextends, fun other hother => ?_, fun last hlast => ?_⟩
    · cases hother
      exact ⟨_, hnew⟩
    · show some (Term.blank (mint env.store m label).1) = some (Term.blank (last.node label))
      rw [Minting.node_of_lookup (hlast label _ hnew)]

omit hs in
/-- The terms of places begin with that of the first, if it has one. -/
theorem instantiatePlaces_cons (env : Env) (m : Minting) (place : Place) (rest : List Place) :
    instantiatePlaces env row m (place :: rest) =
      match (instantiatePlace env row m place).1 with
      | none => ([], (instantiatePlace env row m place).2)
      | some t =>
        (t :: (instantiatePlaces env row (instantiatePlace env row m place).2 rest).1,
          (instantiatePlaces env row (instantiatePlace env row m place).2 rest).2) := by
  rw [instantiatePlaces]
  obtain ⟨t | t, m'⟩ := instantiatePlace env row m place <;> rfl

/-- Places give their terms, and the labels that the solution comes to have nodes then. -/
theorem instantiatePlaces_spec (h : IsSound env.store base m) (places : List Place) :
    Extends env.store base m (instantiatePlaces env row m places).2 ∧
      (∀ label, ComesTo env.names row places label →
        (instantiatePlaces env row m places).2.Knows label) ∧
      ∀ last : Minting, (instantiatePlaces env row m places).2.IsKeptBy last →
        (instantiatePlaces env row m places).1 = placeTerms env.names row last.node places := by
  induction places generalizing m with
  | nil =>
    refine ⟨.refl h, ?_, fun _ _ => rfl⟩
    rintro label ⟨before, after, hplaces, -⟩
    exact absurd hplaces (by simp)
  | cons place rest ih =>
    obtain ⟨hfirst, hknown, hterm⟩ := instantiatePlace_spec hs row h place
    obtain ⟨hrest, hknownRest, hterms⟩ := ih hfirst.sound
    rw [instantiatePlaces_cons]
    cases hplace : (instantiatePlace env row m place).1 with
    | none =>
      refine ⟨hfirst, fun label hlabel => ?_, fun last hlast => ?_⟩
      · rcases hlabel.cases with hblank | ⟨-, hsome⟩
        · exact hknown label hblank
        · have hterm := hterm _ fun _ _ hnew => hnew
          have hsome := hsome (instantiatePlace env row m place).2.node
          rw [← hterm, hplace] at hsome
          cases hsome
      · rw [placeTerms, ← hterm last hlast, hplace]
    | some t =>
      refine ⟨hfirst.trans hrest, fun label hlabel => ?_, fun last hlast => ?_⟩
      · rcases hlabel.cases with hblank | ⟨hlabel, -⟩
        · exact hrest.knows (hknown label hblank)
        · exact hknownRest label hlabel
      · have hkept : (instantiatePlace env row m place).2.IsKeptBy last :=
          fun label new hnew => hlast label new (hrest.kept label new hnew)
        rw [placeTerms, ← hterm last hkept, hplace]
        exact congrArg (t :: ·) (hterms last hlast)

/-- A template gives the instances of its patterns, and the labels that the solution uses have
nodes then. -/
theorem instantiate_spec (h : IsSound env.store base m) (template : List Pattern) :
    Extends env.store base m (instantiate env row m template).2 ∧
      (∀ label, UsesLabel env.names template row label →
        (instantiate env row m template).2.Knows label) ∧
      ∀ last : Minting, (instantiate env row m template).2.IsKeptBy last →
        (instantiate env row m template).1 =
          template.filterMap (instance? env.names row last.node) := by
  induction template generalizing m with
  | nil =>
    refine ⟨.refl h, ?_, fun _ _ => rfl⟩
    rintro label ⟨p, hp, -⟩
    exact absurd hp List.not_mem_nil
  | cons p rest ih =>
    obtain ⟨hfirst, hknown, hterms⟩ := instantiatePlaces_spec hs row h p.places
    obtain ⟨hrest, hknownRest, htriples⟩ := ih hfirst.sound
    refine ⟨hfirst.trans hrest, ?_, fun last hlast => ?_⟩
    · rintro label ⟨other, hother, hlabel⟩
      rcases List.mem_cons.mp hother with rfl | hother
      · exact hrest.knows (hknown label hlabel)
      · exact hknownRest label ⟨other, hother, hlabel⟩
    · have hkept : (instantiatePlaces env row m p.places).2.IsKeptBy last :=
        fun label new hnew => hlast label new (hrest.kept label new hnew)
      show (tripleOf? (instantiatePlaces env row m p.places).1).toList ++
        (instantiate env row (instantiatePlaces env row m p.places).2 rest).1 = _
      rw [hterms last hkept, tripleOf?_placeTerms, htriples last hlast, List.filterMap_cons]
      cases instance? env.names row last.node p <;> rfl

omit hs

/-! ## Graphs -/

/-- Nodes for the labels of a template at solutions, as far as a solution uses them: none is known
to the store, and different labels and different solutions have different ones. -/
structure NamesApart (env : Env) (template : List Pattern) (rows : List Solution)
    (node : Nat → String → BlankNode) : Prop where
  unknown : ∀ i row label, rows[i]? = some row → UsesLabel env.names template row label →
    env.store.containsTerm (.blank (node i label)) = false
  injective : ∀ i j row row' label label', rows[i]? = some row → rows[j]? = some row' →
    UsesLabel env.names template row label → UsesLabel env.names template row' label' →
    node i label = node j label' → i = j ∧ label = label'

/-- The nodes for a first solution, and then those for the others. -/
def nodesFrom (first : String → BlankNode) (others : Nat → String → BlankNode) :
    Nat → String → BlankNode
  | 0 => first
  | i + 1 => others i

/-- One more solution in front, with nodes of its own. -/
theorem NamesApart.cons {template : List Pattern} {row : Solution} {rest : List Solution}
    {first : String → BlankNode} {others : Nat → String → BlankNode}
    (h : NamesApart env template rest others)
    (hunknown : ∀ label, UsesLabel env.names template row label →
      env.store.containsTerm (.blank (first label)) = false)
    (hinjective : ∀ label label', UsesLabel env.names template row label →
      UsesLabel env.names template row label' → first label = first label' → label = label')
    (hothers : ∀ j row' label label', rest[j]? = some row' →
      UsesLabel env.names template row label → UsesLabel env.names template row' label' →
      first label ≠ others j label') :
    NamesApart env template (row :: rest) (nodesFrom first others) := by
  constructor
  · rintro (_ | i) row' label hrow hlabel
    · cases hrow
      exact hunknown label hlabel
    · exact h.unknown i row' label hrow hlabel
  · rintro (_ | i) (_ | j) row₁ row₂ label label' hrow₁ hrow₂ hlabel hlabel' heq
    · cases hrow₁
      cases hrow₂
      exact ⟨rfl, hinjective label label' hlabel hlabel' heq⟩
    · cases hrow₁
      exact absurd heq (hothers j row₂ label label' hrow₂ hlabel hlabel')
    · cases hrow₂
      exact absurd heq.symm (hothers i row₁ label' label hrow₁ hlabel' hlabel)
    · obtain ⟨rfl, hlabels⟩ := h.injective i j row₁ row₂ label label' hrow₁ hrow₂ hlabel hlabel' heq
      exact ⟨rfl, hlabels⟩

/-- The solutions one by one, with nodes that are numbered from `counter` on. -/
theorem instantiateAll_spec (hs : env.store.IsCoherent) (template : List Pattern) (counter : Nat)
    (rows : List Solution) :
    ∃ node : Nat → String → BlankNode, NamesApart env template rows node ∧
      (∀ i row label, rows[i]? = some row → UsesLabel env.names template row label →
        ∃ n, counter ≤ n ∧ node i label = numbered n) ∧
      ∀ t, t ∈ instantiateAll env template counter rows ↔ ∃ i row, rows[i]? = some row ∧
        ∃ p ∈ template, instance? env.names row (node i) p = some t := by
  induction rows generalizing counter with
  | nil =>
    refine ⟨fun _ label => ⟨label⟩, ⟨fun _ _ _ h => ?_, fun _ _ _ _ _ _ h => ?_⟩,
      fun _ _ _ h => ?_, fun t => ?_⟩
    · cases h
    · cases h
    · cases h
    · simp [instantiateAll]
  | cons row rest ih =>
    obtain ⟨hextends, hknown, htriples⟩ :=
      instantiate_spec hs row (Minting.isSound_start env.store counter) template
    have hall : instantiateAll env template counter (row :: rest) =
        (instantiate env row ⟨counter, []⟩ template).1 ++
          instantiateAll env template (instantiate env row ⟨counter, []⟩ template).2.counter rest :=
      rfl
    rw [hall]
    generalize instantiate env row ⟨counter, []⟩ template = made at *
    obtain ⟨triples, m⟩ := made
    dsimp only at *
    have hfirst := htriples m fun _ _ hnew => hnew
    obtain ⟨node, hnode, hlater, hmem⟩ := ih m.counter
    have hlookup : ∀ label, UsesLabel env.names template row label →
        m.nodes.lookup label = some (m.node label) := fun label hlabel =>
      (hknown label hlabel).lookup_eq
    refine ⟨nodesFrom m.node node, hnode.cons (fun label hlabel => ?_)
      (fun label label' hlabel hlabel' heq => ?_)
      (fun j row' label label' hrow hlabel hlabel' heq => ?_), ?_, fun t => ?_⟩
    · exact hextends.sound.unknown label _ (hlookup label hlabel)
    · refine hextends.sound.injective label label' _ (hlookup label hlabel) ?_
      exact (hlookup label' hlabel').trans (congrArg some heq.symm)
    · -- the first solution's nodes come before the counter, the others after it
      obtain ⟨n, -, hlt, hn⟩ := hextends.sound.counted label _ (hlookup label hlabel)
      obtain ⟨k, hk, hnum⟩ := hlater j row' label' hrow hlabel'
      rw [hn, hnum] at heq
      have := numbered_injective heq
      omega
    · rintro (_ | i) row' label hrow hlabel
      · cases hrow
        obtain ⟨n, hn, -, hname⟩ := hextends.sound.counted label _ (hlookup label hlabel)
        exact ⟨n, hn, hname⟩
      · obtain ⟨n, hn, hname⟩ := hlater i row' label hrow hlabel
        exact ⟨n, Nat.le_trans hextends.sound.base_le hn, hname⟩
    · rw [List.mem_append, hfirst, hmem, List.mem_filterMap]
      constructor
      · rintro (⟨p, hp, ht⟩ | ⟨i, row', hrow, hp⟩)
        · exact ⟨0, row, rfl, p, hp, ht⟩
        · exact ⟨i + 1, row', hrow, hp⟩
      · rintro ⟨_ | i, row', hrow, p, hp, ht⟩
        · cases hrow
          exact Or.inl ⟨p, hp, ht⟩
        · exact Or.inr ⟨i, row', hrow, p, hp, ht⟩

/-- A graph of a template and solutions: it has no triple twice, and its triples are the instances
of the template at the solutions, with nodes for its labels that are not in the store and differ
from label to label and from solution to solution. -/
structure IsGraphOf (env : Env) (template : List Pattern) (rows : List Solution)
    (node : Nat → String → BlankNode) (graph : List Triple) : Prop where
  nodup : graph.Nodup
  mem : ∀ t, t ∈ graph ↔ ∃ i row, rows[i]? = some row ∧
    ∃ p ∈ template, instance? env.names row (node i) p = some t
  /-- The names of all labels in these instances are apart. -/
  used : ∀ i row p t label, rows[i]? = some row → p ∈ template →
    instance? env.names row (node i) p = some t → .blank label ∈ p.places →
    UsesLabel env.names template row label
  apart : NamesApart env template rows node
  unmentioned : ∀ i row label, rows[i]? = some row → UsesLabel env.names template row label →
    ∀ t, env.store.contains t = true → ¬t.Mentions (node i label)

/-- What is constructed from a template and solutions is their graph. -/
theorem construct_isGraphOf (hs : env.store.IsCoherent) (template : List Pattern)
    (rows : List Solution) :
    ∃ node, IsGraphOf env template rows node (construct env template rows) := by
  obtain ⟨node, hnode, -, hmem⟩ := instantiateAll_spec hs template 0 rows
  refine ⟨node, nodup_eraseDups _, fun t => ?_,
    fun _ _ _ _ _ _ hp => usesLabel_of_instance? hp, hnode,
    fun i row label hrow hlabel t ht hm => ?_⟩
  · exact List.mem_eraseDups.trans (hmem t)
  · have hunknown := hnode.unknown i row label hrow hlabel
    rw [Store.containsTerm_of_mentions ht hm] at hunknown
    cases hunknown

/-- A query for a graph that is read has an answer on every reachable store: the plan of the query
is read to its end, and the answer is the graph of the template and these solutions. -/
theorem execute_isGraphOf {text : String} {q : Query} {template : List Pattern}
    (hread : Query.read text = .ok q) (hform : q.form = .construct template) (hs : s.IsReachable) :
    ∃ rows graph node, (plan (envOf s q) q).bind (fun p => p.root.toList) = .ok rows ∧
      execute s q = .ok (.graph graph) ∧ IsGraphOf (envOf s q) template rows node graph := by
  have hplaced := read_placed hread
  obtain ⟨root, hplan, hlists⟩ := plan_lists s hplaced
  have hcoherent : (envOf s q).store.IsCoherent := hs.isCoherent
  obtain ⟨node, hgraph⟩ := construct_isGraphOf hcoherent template (planSolutions (envOf s q) q)
  refine ⟨_, _, node, ?_, ?_, hgraph⟩
  · rw [hplan]
    exact hlists.toList_eq
  · rw [execute_eq s hplaced]
    unfold answerOf planSolutions
    rw [hform]

/-- A triple about the nodes that are tried first for labels. -/
def firstNames : Triple := ⟨.blank ⟨"c0"⟩, ⟨"http://example.org/knows"⟩, .blank ⟨"c1"⟩⟩

/-- A store with this triple alone. -/
def minted : Store := ((Store.empty ⟨0, 1⟩).performAll [.add firstNames]).2

/-- The store has the triple of first names. -/
theorem contains_minted : minted.contains firstNames = true :=
  (Store.contains_add (Store.isCoherent_empty _)).mpr (Or.inl rfl)

/-- A text for a graph with a label in two patterns, one of them with a variable that is not bound,
and with a label that follows a variable. -/
def meetings : String :=
  "CONSTRUCT \x7b _:m <http://example.org/of> ?x . _:m <http://example.org/at> ?place . " ++
    "?y ?place _:n \x7d WHERE \x7b ?x ?p ?y \x7d"

/-- Whether a text is a query for a graph with a label at the front of its template. -/
def isLabelledGraph (text : String) : Bool :=
  match Query.read text with
  | .ok ⟨.construct (⟨.blank _, _, _⟩ :: _), _, _, _⟩ => true
  | _ => false

/-- On a store that has the first names, the graph of the text has another node for the label at
each solution. -/
theorem execute_isGraphOf_meetings :
    ∃ q template rows graph node label, Query.read meetings = .ok q ∧
      execute minted q = .ok (.graph graph) ∧
      IsGraphOf (envOf minted q) template rows node graph ∧
      (∀ i, i < rows.length → ¬firstNames.Mentions (node i label)) ∧
      ∀ i j, i < rows.length → j < rows.length → node i label = node j label → i = j := by
  have hlabelled : isLabelledGraph meetings = true := by decide +kernel
  unfold isLabelledGraph at hlabelled
  split at hlabelled
  · rename_i label _ _ _ _ _ _ hread
    obtain ⟨rows, graph, node, -, hgraph, hof⟩ :=
      execute_isGraphOf hread rfl (⟨_, _, rfl⟩ : minted.IsReachable)
    refine ⟨_, _, rows, graph, node, label, hread, hgraph, hof, fun i hi => ?_,
      fun i j hi hj heq => ?_⟩
    · exact hof.unmentioned i _ label (List.getElem?_eq_getElem hi) usesLabel_front _ contains_minted
    · exact (hof.apart.injective i j _ _ label label (List.getElem?_eq_getElem hi)
        (List.getElem?_eq_getElem hj) usesLabel_front usesLabel_front heq).1
  · cases hlabelled

end RdfStore.Eval
