import RdfStore.Proofs.Eval.AnswerTerms
import RdfStore.Proofs.Eval.ScanChain
import RdfStore.Proofs.Query.ShortGraph

/-!
# Graphs of matches

A query for a graph without a template of its own gives back a part of the store. A match assigns
terms to the variables of the patterns, those that stand for blank nodes included, so that every
pattern becomes a stored triple. Each row of the query comes from a match, and so the graph has
stored triples only; without data and without a slice all matches have their rows, and the graph has
every triple of every match.
-/

set_option autoImplicit false

namespace RdfStore.Eval

open Query Solution

/-! ## Matches -/

/-- The term of a place when terms are assigned to the variables. -/
def assignedTerm (value : String → Term) : Place → Option Term
  | .var name => some (value name)
  | .term t => some t
  | .blank _ => none

/-- An assignment turns a pattern into a triple. -/
structure Turns (value : String → Term) (p : Pattern) (t : Triple) : Prop where
  subject : assignedTerm value p.subject = some t.subject.toTerm
  predicate : assignedTerm value p.predicate = some (.iri t.predicate)
  object : assignedTerm value p.object = some t.object

/-- A match of patterns in a store turns each of them into a stored triple. -/
def IsMatch (s : Store) (patterns : List Pattern) (value : String → Term) : Prop :=
  ∀ p ∈ patterns, ∃ t, s.contains t = true ∧ Turns value p t

/-- A triple takes part in some match of patterns. -/
def TakesPart (s : Store) (patterns : List Pattern) (t : Triple) : Prop :=
  ∃ value, IsMatch s patterns value ∧ ∃ p ∈ patterns, Turns value p t

/-! ## Patterns under rows -/

/-- Under a row a pattern is a triple. -/
structure IsUnder (names : Slots) (row : Solution) (p : Pattern) (t : Triple) : Prop where
  subject : termAt names row p.subject = some t.subject.toTerm
  predicate : termAt names row p.predicate = some (.iri t.predicate)
  object : termAt names row p.object = some t.object

variable {env : Env} {names : Slots} {row other : Solution} {p : Pattern} {patterns : List Pattern}
  {t t' : Triple} {value : String → Term}

/-- A pattern holds in a row if the store has the triple that the row makes of it. -/
theorem holdsIn_iff :
    HoldsIn env row p ↔ ∃ t, env.store.contains t = true ∧ IsUnder env.names row p t :=
  ⟨fun ⟨t, ht, hs, hp, ho⟩ => ⟨t, ht, hs, hp, ho⟩,
    fun ⟨t, ht, hs, hp, ho⟩ => ⟨t, ht, hs, hp, ho⟩⟩

/-- A row makes one triple of a pattern at most. -/
theorem IsUnder.unique (h : IsUnder names row p t) (h' : IsUnder names row p t') : t = t' := by
  have hsubject := Option.some.inj (h.subject.symm.trans h'.subject)
  have hpredicate := Option.some.inj (h.predicate.symm.trans h'.predicate)
  have hobject := Option.some.inj (h.object.symm.trans h'.object)
  have hsame := Triple.ofTerms?_toTerm t
  rw [hsubject, hpredicate, hobject, Triple.ofTerms?_toTerm] at hsame
  exact (Option.some.inj hsame).symm

/-- A place keeps its term when the row gets more terms. -/
theorem termAt_mono (hkept : ∀ slot u, row.get? slot = some u → other.get? slot = some u)
    {place : Place} {u : Term} (h : termAt names row place = some u) :
    termAt names other place = some u := by
  cases place with
  | var name =>
    obtain ⟨slot, hslot, hget⟩ := Option.bind_eq_some_iff.mp h
    exact Option.bind_eq_some_iff.mpr ⟨slot, hslot, hkept slot u hget⟩
  | term _ | blank _ => exact h

/-- A row with more values makes the same triple of a pattern. -/
theorem IsUnder.mono (h : IsUnder names row p t)
    (hkept : ∀ slot u, row.get? slot = some u → other.get? slot = some u) :
    IsUnder names other p t :=
  ⟨termAt_mono hkept h.subject, termAt_mono hkept h.predicate, termAt_mono hkept h.object⟩

/-- A place without a label has the same term in a template. -/
theorem placeTerm_eq_termAt {place : Place} (h : place.label? = none)
    (node : String → BlankNode) : placeTerm names row node place = termAt names row place := by
  cases place with
  | var _ | term _ => rfl
  | blank _ => cases h

/-- The instance of a pattern without labels is the triple that it is under the row. -/
theorem instance?_eq_of_isUnder (hlabels : p.places.filterMap Place.label? = [])
    (h : IsUnder names row p t) (node : String → BlankNode) :
    instance? names row node p = some t := by
  have hplain : ∀ place ∈ p.places, place.label? = none := List.filterMap_eq_nil_iff.mp hlabels
  unfold instance?
  rw [placeTerm_eq_termAt (hplain _ (by simp [Pattern.places])), h.subject,
    placeTerm_eq_termAt (hplain _ (by simp [Pattern.places])), h.predicate,
    placeTerm_eq_termAt (hplain _ (by simp [Pattern.places])), h.object]
  exact Triple.ofTerms?_toTerm t

/-! ## Rows of matches -/

/-- The terms that a row gives to the variables; others get one that does not matter. -/
def valueIn (names : Slots) (row : Solution) (name : String) : Term :=
  (names.value? row name).getD (.iri Vocabulary.rdfNil)

/-- The triple under a pattern is the pattern with the values of the row. -/
theorem IsUnder.turns (h : IsUnder names row p t) : Turns (valueIn names row) p t := by
  have hplace : ∀ {place : Place} {u : Term}, termAt names row place = some u →
      assignedTerm (valueIn names row) place = some u := by
    intro place u hu
    cases place with
    | var name =>
      have hvalue : names.value? row name = some u := hu
      exact congrArg some ((congrArg (Option.getD · _) hvalue).trans rfl)
    | term _ => exact hu
    | blank _ => cases hu
  exact ⟨hplace h.subject, hplace h.predicate, hplace h.object⟩

/-- A solution of patterns gives a match. -/
theorem isMatch_of_isSolution {seed : Solution} (h : IsSolution env patterns seed row) :
    IsMatch env.store patterns (valueIn env.names row) := by
  intro p hp
  obtain ⟨t, ht, hunder⟩ := holdsIn_iff.mp (h.holds p hp)
  exact ⟨t, ht, hunder.turns⟩

/-- The row with all terms of an assignment. -/
def assignedRow (names : Slots) (value : String → Term) : Solution :=
  names.map fun name => some (value name)

/-- What an assignment turns a pattern into, the pattern is under the row of the assignment. -/
theorem Turns.isUnder (h : Turns value p t) (hnames : ∀ name ∈ p.vars, name ∈ names) :
    IsUnder names (assignedRow names value) p t := by
  have hplace : ∀ place ∈ p.places, ∀ u, assignedTerm value place = some u →
      termAt names (assignedRow names value) place = some u := by
    intro place hplace u hu
    cases place with
    | var name =>
      obtain ⟨slot, hslot⟩ := slot?_of_mem (hnames name (List.mem_filterMap.mpr ⟨_, hplace, rfl⟩))
      rw [termAt, Slots.value?, hslot, Option.bind_some, Solution.get?, assignedRow,
        List.getElem?_map, getElem?_of_slot? hslot]
      exact hu
    | term _ => exact hu
    | blank _ => cases hu
  exact ⟨hplace _ (by simp [Pattern.places]) _ h.subject,
    hplace _ (by simp [Pattern.places]) _ h.predicate,
    hplace _ (by simp [Pattern.places]) _ h.object⟩

/-- Under a row that extends a seed all patterns hold, so it extends some solution of them. -/
theorem exists_isSolution_of_holdsIn (hs : env.store.IsCoherent) {seed full : Solution}
    (hwidth : seed.length = env.names.length) (hscan : ∀ p ∈ patterns, IsScannable env.names p)
    (hext : seed.IsExtendedBy full) (hholds : ∀ p ∈ patterns, HoldsIn env full p) :
    ∃ row, IsSolution env patterns seed row ∧ row.IsExtendedBy full := by
  induction patterns generalizing seed with
  | nil => exact ⟨seed, isSolution_nil.mpr rfl, hext⟩
  | cons p rest ih =>
    have hfirst := hscan p List.mem_cons_self
    obtain ⟨middle, hmem, hmiddle⟩ :=
      matchSolutions_complete hs hwidth hfirst hext (hholds p List.mem_cons_self)
    obtain ⟨hextends, -⟩ := matchSolutions_sound hs hwidth hmem
    obtain ⟨row, hrow, hbelow⟩ := ih (hextends.length_eq.trans hwidth)
      (fun q hq => hscan q (List.mem_cons_of_mem _ hq)) hmiddle
      fun q hq => hholds q (List.mem_cons_of_mem _ hq)
    exact ⟨row, (isSolution_cons hs hwidth hfirst).mpr ⟨middle, hmem, hrow⟩, hbelow⟩

/-- Every match has a solution under which the patterns are the triples of the match. -/
theorem exists_isSolution_of_isMatch (hs : env.store.IsCoherent)
    (hnames : ∀ p ∈ patterns, ∀ name ∈ p.vars, name ∈ env.names)
    (hlabels : labelsOf patterns = []) (h : IsMatch env.store patterns value) :
    ∃ row, IsSolution env patterns (.unbound env.names.length) row ∧
      ∀ p ∈ patterns, ∀ t, Turns value p t → IsUnder env.names row p t := by
  have hscan : ∀ p ∈ patterns, IsScannable env.names p := fun p hp =>
    ofPattern_of_covered (hnames p hp) (List.flatMap_eq_nil_iff.mp hlabels p hp)
  have hext : (Solution.unbound env.names.length).IsExtendedBy (assignedRow env.names value) := by
    refine ⟨by simp [assignedRow, Solution.unbound], fun slot u hu => ?_⟩
    rw [get?_unbound] at hu
    cases hu
  have hholds : ∀ p ∈ patterns, HoldsIn env (assignedRow env.names value) p := by
    intro p hp
    obtain ⟨t, ht, hturns⟩ := h p hp
    exact holdsIn_iff.mpr ⟨t, ht, hturns.isUnder (hnames p hp)⟩
  obtain ⟨row, hrow, hbelow⟩ :=
    exists_isSolution_of_holdsIn hs (by simp [Solution.unbound]) hscan hext hholds
  refine ⟨row, hrow, fun p hp t hturns => ?_⟩
  -- both triples are the same, because the row of the assignment has all terms of the solution
  obtain ⟨t', -, hunder⟩ := holdsIn_iff.mp (hrow.holds p hp)
  have hsame := (hunder.mono hbelow.get?_eq).unique (hturns.isUnder (hnames p hp))
  exact hsame ▸ hunder

/-! ## Rows of the query -/

/-- The solutions of a group of nothing but patterns are those of the patterns. -/
theorem mem_groupSolutions_patternsOnly (hs : env.store.IsCoherent)
    (hscan : ∀ p ∈ patterns, IsScannable env.names p) :
    row ∈ groupSolutions env (patternsOnly patterns) (.unbound env.names.length) ↔
      IsSolution env patterns (.unbound env.names.length) row := by
  have hgroup : groupSolutions env (patternsOnly patterns) (.unbound env.names.length) =
      joinSolutions env (joinOrder (env.names.boundNames (.unbound env.names.length)) patterns)
        [.unbound env.names.length] := by
    cases patterns with
    | nil => exact List.filter_eq_self.mpr fun _ _ => rfl
    | cons p rest => exact List.filter_eq_self.mpr fun _ _ => rfl
  have horder := joinOrder_perm (env.names.boundNames (.unbound env.names.length)) patterns
  have hrows : ∀ row ∈ [Solution.unbound env.names.length], row.length = env.names.length := by
    intro row hrow
    rw [List.mem_singleton.mp hrow, Solution.unbound, List.length_replicate]
  rw [hgroup, mem_joinSolutions hs (fun p hp => hscan p (horder.mem_iff.mp hp)) hrows]
  simp only [List.mem_singleton, exists_eq_left]
  exact isSolution_perm horder

/-- A group of patterns mentions their variables. -/
theorem mem_addGroup_patternsOnly (hp : p ∈ patterns) {name : String} (hname : name ∈ p.vars) :
    name ∈ addGroup [] (patternsOnly patterns) := by
  have hgroup : patternsOnly patterns = .mk [.triples patterns] :=
    if_neg fun hempty => List.ne_nil_of_mem hp (List.isEmpty_iff.mp hempty)
  rw [hgroup]
  exact mem_insertNames.mpr (Or.inr (List.mem_flatMap.mpr ⟨p, hp, hname⟩))

/-- A merge with a table keeps the terms of a row. -/
theorem get?_of_mem_joinTable {table : List Solution} (h : other ∈ joinTable table row) {slot : Nat}
    {u : Term} (hu : row.get? slot = some u) : other.get? slot = some u := by
  obtain ⟨r, -, hmerge⟩ := List.mem_filterMap.mp h
  unfold merge? at hmerge
  split at hmerge
  · cases hmerge
    rw [get?_overlay, hu]
    rfl
  · cases hmerge

/-- In every row of a query for a group of patterns, the patterns are stored triples. -/
theorem holdsIn_of_mem_querySolutions (hs : env.store.IsCoherent)
    (hscan : ∀ p ∈ patterns, IsScannable env.names p) {q : Query}
    (hpattern : q.pattern = patternsOnly patterns) (h : row ∈ querySolutions env q)
    (hp : p ∈ patterns) :
    ∃ t, env.store.contains t = true ∧ IsUnder env.names row p t := by
  unfold querySolutions at h
  rw [hpattern] at h
  cases hdata : q.data with
  | none =>
    rw [hdata] at h
    exact holdsIn_iff.mp (((mem_groupSolutions_patternsOnly hs hscan).mp h).holds p hp)
  | some block =>
    rw [hdata] at h
    obtain ⟨first, hfirst, hmerged⟩ := List.mem_flatMap.mp h
    have hsolution := (mem_groupSolutions_patternsOnly hs hscan).mp hfirst
    obtain ⟨t, ht, hunder⟩ := holdsIn_iff.mp (hsolution.holds p hp)
    exact ⟨t, ht, hunder.mono fun _ _ => get?_of_mem_joinTable hmerged⟩

/-! ## The graph -/

/-- Where all patterns are stored triples in all rows, these triples are the graph. -/
theorem mem_construct_iff (hs : env.store.IsCoherent) (hlabels : labelsOf patterns = [])
    {rows : List Solution} (hrows : ∀ row ∈ rows, ∀ p ∈ patterns, HoldsIn env row p) :
    t ∈ construct env patterns rows ↔
      ∃ row ∈ rows, ∃ p ∈ patterns, IsUnder env.names row p t := by
  obtain ⟨node, hgraph⟩ := construct_isGraphOf hs patterns rows
  rw [hgraph.mem]
  constructor
  · rintro ⟨i, row, hrow, p, hp, hinstance⟩
    have hmem : row ∈ rows := List.mem_of_getElem? hrow
    obtain ⟨t', -, hunder⟩ := holdsIn_iff.mp (hrows row hmem p hp)
    have hsame := instance?_eq_of_isUnder (List.flatMap_eq_nil_iff.mp hlabels p hp) hunder (node i)
    rw [hinstance] at hsame
    cases hsame
    exact ⟨row, hmem, p, hp, hunder⟩
  · rintro ⟨row, hrow, p, hp, hunder⟩
    obtain ⟨i, hi⟩ := List.mem_iff_getElem?.mp hrow
    exact ⟨i, row, hi, p, hp,
      instance?_eq_of_isUnder (List.flatMap_eq_nil_iff.mp hlabels p hp) hunder (node i)⟩

/-- The rows that a graph is made from, without a slice, are those of the query. -/
theorem mem_slicedList_sortedSolutions {m : Modifiers} (hlimit : m.limit = none)
    (hoffset : m.offset = 0) {rows : List Solution} :
    row ∈ slicedList m (sortedSolutions env m rows) ↔ row ∈ rows := by
  unfold slicedList
  rw [hlimit, hoffset]
  exact (sortedSolutions_perm env m rows).mem_iff

/-- Without data, the triples that patterns are in some row of the query are those that take part
in a match. -/
theorem exists_mem_querySolutions_iff (hs : env.store.IsCoherent) (hlabels : labelsOf patterns = [])
    (hnames : ∀ p ∈ patterns, ∀ name ∈ p.vars, name ∈ env.names) {q : Query}
    (hpattern : q.pattern = patternsOnly patterns) (hdata : q.data = none) :
    (∃ row ∈ querySolutions env q, ∃ p ∈ patterns, IsUnder env.names row p t) ↔
      TakesPart env.store patterns t := by
  have hscan : ∀ p ∈ patterns, IsScannable env.names p := fun p hp =>
    ofPattern_of_covered (hnames p hp) (List.flatMap_eq_nil_iff.mp hlabels p hp)
  have hrows : ∀ row, row ∈ querySolutions env q ↔
      IsSolution env patterns (.unbound env.names.length) row := by
    intro row
    unfold querySolutions
    rw [hdata, hpattern]
    exact mem_groupSolutions_patternsOnly hs hscan
  constructor
  · rintro ⟨row, hrow, p, hp, hunder⟩
    exact ⟨valueIn env.names row, isMatch_of_isSolution ((hrows row).mp hrow), p, hp, hunder.turns⟩
  · rintro ⟨value, hmatch, p, hp, hturns⟩
    obtain ⟨row, hrow, hunder⟩ := exists_isSolution_of_isMatch hs hnames hlabels hmatch
    exact ⟨row, (hrows row).mpr hrow, p, hp, hunder p hp t hturns⟩

/-- The answer to a query for a graph without a template of its own: a graph of stored triples; and
without data and without a slice those that take part in a match of the patterns. -/
structure AnswersMatches (s : Store) (q : Query) (patterns : List Pattern) (graph : List Triple) :
    Prop where
  answer : execute s q = .ok (.graph graph)
  nodup : graph.Nodup
  stored : ∀ t ∈ graph, s.contains t = true
  matched : q.modifiers.limit = none → q.modifiers.offset = 0 → q.data = none →
    ∀ t, t ∈ graph ↔ TakesPart s patterns t

/-- A text for a graph without a template of its own is read with patterns that are written in it,
and on every reachable store the answer is made of stored triples. Without data and without a slice
it has exactly the triples that take part in some match of the patterns. -/
theorem execute_short {text : String} {q : Query} {s : Store} (hshort : isShortGraph text = true)
    (hread : Query.read text = .ok q) (hs : s.IsReachable) :
    ∃ node patterns graph, formNode? text = some node ∧ Shares node q patterns ∧
      AnswersMatches s q patterns graph := by
  obtain ⟨node, patterns, hnode, hshares⟩ := read_short hshort hread
  have hplaced := read_placed hread
  have hlabels := hshares.unlabelled
  have hcoherent : (envOf s q).store.IsCoherent := hs.isCoherent
  have hnames : ∀ p ∈ patterns, ∀ name ∈ p.vars, name ∈ (envOf s q).names := by
    intro p hp name hname
    refine (isRunnable_slots hplaced).pattern.covered name ?_
    rw [hshares.pattern]
    exact mem_addGroup_patternsOnly hp hname
  have hscan : ∀ p ∈ patterns, IsScannable (envOf s q).names p := fun p hp =>
    ofPattern_of_covered (hnames p hp) (List.flatMap_eq_nil_iff.mp hlabels p hp)
  let solutions := querySolutions (envOf s q) q
  let rows := slicedList q.modifiers (sortedSolutions (envOf s q) q.modifiers solutions)
  have hholds : ∀ row ∈ rows, ∀ p ∈ patterns, HoldsIn (envOf s q) row p := by
    intro row hrow p hp
    have hmem : row ∈ solutions :=
      (sortedSolutions_perm _ _ _).mem_iff.mp (mem_of_mem_slicedList hrow)
    exact holdsIn_iff.mpr (holdsIn_of_mem_querySolutions hcoherent hscan hshares.pattern hmem hp)
  refine ⟨node, patterns, construct (envOf s q) patterns rows, hnode, hshares, ?_, ?_, ?_, ?_⟩
  · rw [execute_eq s hplaced]
    unfold answerOf
    rw [hshares.form]
  · exact nodup_eraseDups _
  · intro t ht
    obtain ⟨row, hrow, p, hp, hunder⟩ := (mem_construct_iff hcoherent hlabels hholds).mp ht
    obtain ⟨t', ht', hunder'⟩ := holdsIn_iff.mp (hholds row hrow p hp)
    exact hunder.unique hunder' ▸ ht'
  · intro hlimit hoffset hdata t
    have hrows : ∀ row, row ∈ rows ↔ row ∈ solutions := fun row =>
      mem_slicedList_sortedSolutions hlimit hoffset
    rw [mem_construct_iff hcoherent hlabels hholds]
    simp only [hrows]
    exact exists_mem_querySolutions_iff hcoherent hlabels hnames hshares.pattern hdata

/-- A blank node that knows itself. -/
def selfKnown : Triple := ⟨.blank ⟨"a"⟩, ⟨"http://example.org/knows"⟩, .blank ⟨"a"⟩⟩

/-- A store that has this triple after one about two nodes. -/
def acquainted : Store := ((Store.empty ⟨0, 1⟩).performAll [.add firstNames, .add selfKnown]).2

/-- The store knows the triple of someone who knows himself. -/
theorem contains_acquainted : acquainted.contains selfKnown = true :=
  (Store.contains_add (Store.isCoherent_add (Store.isCoherent_empty _) firstNames)).mpr (Or.inl rfl)

/-- A text for the triples whose subject is their object. -/
def loops : String := "CONSTRUCT WHERE \x7b _:m ?p _:m \x7d ORDER BY DESC(?p)"

/-- Whether a text is a query for a graph of one pattern with two variables, the first of them
twice, in some order and without data and a slice. -/
def isLoopGraph (text : String) : Bool :=
  match Query.read text with
  | .ok ⟨.construct [⟨.var m, .var p, .var m'⟩], _, ⟨_, none, 0⟩, none⟩ => m == m' && m != p
  | _ => false

/-- The graph of the text has the triple of the node that knows itself, and such triples only. -/
theorem execute_short_loops :
    ∃ q graph, Query.read loops = .ok q ∧ execute acquainted q = .ok (.graph graph) ∧
      selfKnown ∈ graph ∧ ∀ t ∈ graph, t.subject.toTerm = t.object := by
  have hloops : isLoopGraph loops = true := by decide +kernel
  unfold isLoopGraph at hloops
  split at hloops
  · rename_i m p m' pattern orderBy hread
    obtain ⟨hm, hp⟩ := Bool.and_eq_true_iff.mp hloops
    cases eq_of_beq hm
    have hne : m ≠ p := bne_iff_ne.mp hp
    have hshort : isShortGraph loops = true := by decide +kernel
    obtain ⟨node, patterns, graph, -, hshares, hanswer⟩ :=
      execute_short hshort hread (⟨_, _, rfl⟩ : acquainted.IsReachable)
    cases hshares.form
    have hmem := hanswer.matched rfl rfl rfl
    refine ⟨_, graph, hread, hanswer.answer, (hmem selfKnown).mpr ?_, fun t ht => ?_⟩
    · let value : String → Term := fun name =>
        if name = m then .blank ⟨"a"⟩ else .iri ⟨"http://example.org/knows"⟩
      have hturns : Turns value ⟨.var m, .var p, .var m⟩ selfKnown :=
        ⟨congrArg some (if_pos rfl), congrArg some (if_neg hne.symm), congrArg some (if_pos rfl)⟩
      refine ⟨value, fun p hp => ?_, _, List.mem_singleton_self _, hturns⟩
      cases List.mem_singleton.mp hp
      exact ⟨selfKnown, contains_acquainted, hturns⟩
    · obtain ⟨value, -, p, hp, hturns⟩ := (hmem t).mp ht
      cases List.mem_singleton.mp hp
      exact Option.some.inj (hturns.subject.symm.trans hturns.object)
  · cases hloops

end RdfStore.Eval
