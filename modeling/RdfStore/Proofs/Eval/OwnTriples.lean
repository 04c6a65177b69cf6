import RdfStore.Proofs.Eval.AnswerTerms
import RdfStore.Proofs.Eval.Merge
import RdfStore.Proofs.Eval.QueryMeaning
import RdfStore.Proofs.Eval.ScanChain
import RdfStore.Proofs.Eval.SlotTable
import RdfStore.Proofs.Query.WellFormed
import RdfStore.Proofs.Query.WrittenPatterns

/-!
# A store has what is written for it

The lines of all triples of a store, between braces, ask for a pattern for every triple. The row
that gives every hidden variable the blank node of its label makes each of these patterns the
triple that it comes from, so the store has what it is asked for. This holds in whatever order the
patterns are joined, and other rows may hold as well, since a blank node of a query stands for any
term.
-/

set_option autoImplicit false

namespace RdfStore.Eval

open Query

/-! ## Slots of patterns -/

/-- The variables of the pattern of a triple are those of its blank nodes. -/
theorem mem_vars_patternOf {t : Triple} {name : String} :
    name ∈ (patternOf t).vars ↔ ∃ b, t.Mentions b ∧ name = "_:" ++ b.label := by
  have hplace : ∀ u : Term, (placeOf u).var? = some name ↔
      ∃ b, u = .blank b ∧ name = "_:" ++ b.label := by
    intro u
    cases u with
    | iri | literal => simp [placeOf, Place.var?]
    | blank b => simp [placeOf, Place.var?, eq_comm]
  have hsubject : ∀ b, t.subject.toTerm = .blank b ↔ t.subject = .blank b := by
    intro b
    cases t.subject <;> simp [Subject.toTerm]
  simp only [Pattern.vars, Pattern.places, patternOf, List.mem_filterMap, List.mem_cons,
    List.not_mem_nil, or_false, Triple.Mentions]
  constructor
  · rintro ⟨place, rfl | rfl | rfl, hname⟩
    · obtain ⟨b, hb, hname⟩ := (hplace _).mp hname
      exact ⟨b, Or.inl ((hsubject b).mp hb), hname⟩
    · cases hname
    · obtain ⟨b, hb, hname⟩ := (hplace _).mp hname
      exact ⟨b, Or.inr hb, hname⟩
  · rintro ⟨b, hb | hb, hname⟩
    · exact ⟨_, Or.inl rfl, (hplace _).mpr ⟨b, (hsubject b).mpr hb, hname⟩⟩
    · exact ⟨_, Or.inr (Or.inr rfl), (hplace _).mpr ⟨b, hb, hname⟩⟩

variable {ts : List Triple}

/-- The slots of a query that asks for patterns of triples are those of their blank nodes. -/
theorem mem_slots_asking {name : String} :
    name ∈ slots (asking (patternElements ts)) ↔ ∃ t ∈ ts, name ∈ (patternOf t).vars := by
  cases ts with
  | nil =>
    show name ∈ ([] : List String) ↔ _
    simp
  | cons t ts =>
    have hslots : slots (asking (patternElements (t :: ts))) =
        insertNames [] (((t :: ts).map patternOf).flatMap Pattern.vars) := rfl
    simp only [hslots, mem_insertNames, List.not_mem_nil, false_or, List.mem_flatMap, List.mem_map,
      exists_exists_and_eq_and]

/-! ## The row of own blank nodes -/

/-- The blank node that a hidden variable is named for. -/
def hiddenNode (name : String) : BlankNode := ⟨String.ofList (name.toList.drop 2)⟩

/-- A hidden variable is named for the blank node of its label. -/
theorem hiddenNode_label (b : BlankNode) : hiddenNode ("_:" ++ b.label) = b := by
  have hname : ("_:" ++ b.label).toList = '_' :: ':' :: b.label.toList := by
    rw [String.toList_append]
    rfl
  rw [hiddenNode, hname]
  exact congrArg BlankNode.mk String.ofList_toList

/-- The row that gives every hidden variable its own blank node. -/
def ownRow (names : Slots) : Solution := names.map fun name => some (.blank (hiddenNode name))

/-- The row of the store's own triples holds in a node's slot the node itself. -/
theorem get?_ownRow {names : Slots} {slot : Nat} {name : String} (h : names[slot]? = some name) :
    (ownRow names).get? slot = some (.blank (hiddenNode name)) := by
  rw [Solution.get?, ownRow, List.getElem?_map, h]
  rfl

/-- The row gives the variable of a label the blank node of this label. -/
theorem value?_ownRow {names : Slots} {b : BlankNode} (h : "_:" ++ b.label ∈ names) :
    names.value? (ownRow names) ("_:" ++ b.label) = some (.blank b) := by
  obtain ⟨slot, hslot⟩ := slot?_of_mem h
  rw [Slots.value?, hslot, Option.bind_some, get?_ownRow (getElem?_of_slot? hslot),
    hiddenNode_label]

/-- Under the row, the place of a term is the term. -/
theorem termAt_placeOf {names : Slots} {t : Term}
    (h : ∀ name, (placeOf t).var? = some name → name ∈ names) :
    termAt names (ownRow names) (placeOf t) = some t := by
  cases t with
  | iri | literal => rfl
  | blank b => exact value?_ownRow (h _ rfl)

section OwnRow

variable {env : Env}

/-- Under the row, the pattern of a stored triple is this triple. -/
theorem holdsIn_ownRow {t : Triple} (ht : env.store.contains t = true)
    (hnames : ∀ name ∈ (patternOf t).vars, name ∈ env.names) :
    HoldsIn env (ownRow env.names) (patternOf t) := by
  have hplace : ∀ place ∈ (patternOf t).places, ∀ name, place.var? = some name →
      name ∈ env.names := fun place hplace name hname =>
    hnames name (List.mem_filterMap.mpr ⟨place, hplace, hname⟩)
  refine ⟨t, ht, termAt_placeOf (hplace _ ?_), rfl, termAt_placeOf (hplace _ ?_)⟩
  · exact List.mem_cons_self
  · exact List.mem_cons_of_mem _ (List.mem_cons_of_mem _ List.mem_cons_self)

/-- The row is a solution of the patterns of stored triples. -/
theorem isSolution_ownRow (hstored : ∀ t ∈ ts, env.store.contains t = true)
    (hnodup : env.names.Nodup)
    (hnames : ∀ name, name ∈ env.names ↔ ∃ t ∈ ts, name ∈ (patternOf t).vars) :
    IsSolution env (ts.map patternOf) (.unbound env.names.length) (ownRow env.names) where
  extended := by
    refine ⟨by simp [ownRow, Solution.unbound], fun slot t h => ?_⟩
    rw [Solution.get?_unbound] at h
    cases h
  binds slot := by
    constructor
    · intro h
      have hlt : slot < env.names.length := by
        by_contra hle
        rw [Solution.Binds, Solution.get?_of_length_le (by simpa [ownRow] using hle)] at h
        cases h
      obtain ⟨t, ht, hname⟩ := (hnames _).mp (List.getElem_mem hlt)
      exact Or.inr ⟨patternOf t, List.mem_map_of_mem ht, _, hname,
        slot?_of_getElem? hnodup (List.getElem?_eq_getElem hlt)⟩
    · rintro (h | ⟨p, -, name, -, hslot⟩)
      · rw [Solution.Binds, Solution.get?_unbound] at h
        cases h
      · rw [Solution.Binds, get?_ownRow (getElem?_of_slot? hslot)]
        rfl
  holds p hp := by
    obtain ⟨t, ht, rfl⟩ := List.mem_map.mp hp
    exact holdsIn_ownRow (hstored t ht) fun name hname => (hnames name).mpr ⟨t, ht, hname⟩

/-- The solutions of the patterns of triples are those of their join. -/
theorem groupSolutions_patternElements (env : Env) (ts : List Triple) (seed : Solution) :
    groupSolutions env (.mk (patternElements ts)) seed =
      joinSolutions env (joinOrder (env.names.boundNames seed) (ts.map patternOf)) [seed] := by
  cases ts with
  | nil => exact List.filter_eq_self.mpr fun _ _ => rfl
  | cons t ts => exact List.filter_eq_self.mpr fun _ _ => rfl

/-- The row is among the solutions of the patterns of stored triples. -/
theorem ownRow_mem_groupSolutions (hs : env.store.IsCoherent)
    (hstored : ∀ t ∈ ts, env.store.contains t = true) (hnodup : env.names.Nodup)
    (hnames : ∀ name, name ∈ env.names ↔ ∃ t ∈ ts, name ∈ (patternOf t).vars) :
    ownRow env.names ∈
      groupSolutions env (.mk (patternElements ts)) (.unbound env.names.length) := by
  have hscan : ∀ p ∈ ts.map patternOf, IsScannable env.names p := by
    intro p hp
    obtain ⟨t, ht, rfl⟩ := List.mem_map.mp hp
    refine ofPattern_of_covered (fun name hname => (hnames name).mpr ⟨t, ht, hname⟩) ?_
    have hplace : ∀ u : Term, (placeOf u).label? = none := by
      intro u
      cases u <;> rfl
    simp only [Pattern.places, patternOf, List.filterMap_cons, hplace, List.filterMap_nil]
    rfl
  have horder := joinOrder_perm (env.names.boundNames (.unbound env.names.length))
    (ts.map patternOf)
  have hrows : ∀ row ∈ [Solution.unbound env.names.length], row.length = env.names.length := by
    intro row hrow
    rw [List.mem_singleton.mp hrow, Solution.unbound, List.length_replicate]
  rw [groupSolutions_patternElements,
    mem_joinSolutions hs (fun p hp => hscan p (horder.mem_iff.mp hp)) hrows]
  exact ⟨_, List.mem_singleton_self _,
    (isSolution_perm horder).mpr (isSolution_ownRow hstored hnodup hnames)⟩

end OwnRow

/-! ## Asking a store for its triples -/

/-- The query for the patterns of all triples of a store. -/
def ownQuery (s : Store) : Query := asking (patternElements (sortedDistinct s.toList))

/-- The lines of the triples of a store, between braces, are a query that the store answers with
yes. -/
structure AnswersItself (s : Store) : Prop where
  read : Query.read ("ASK \x7b " ++ Turtle.writeLines s.toList ++ " \x7d") = .ok (ownQuery s)
  answer : execute s (ownQuery s) = .ok (.boolean true)
  /-- The variables are those of the labels in the store. -/
  names : ∀ name, name ∈ slots (ownQuery s) ↔
    ∃ t ∈ s.toList, ∃ b, t.Mentions b ∧ name = "_:" ++ b.label
  /-- One of the rows of the pattern gives the variable of every label the blank node of this
  label. -/
  own : ∃ rows row,
    planRows (groupPlan (envOf s (ownQuery s)) (ownQuery s).pattern
      (.unbound (slots (ownQuery s)).length)) = .ok rows ∧
      row ∈ rows ∧ ∀ t ∈ s.toList, ∀ b, t.Mentions b →
        Slots.value? (slots (ownQuery s)) row ("_:" ++ b.label) = some (.blank b)

section Asking

variable {s : Store}

/-- The variables of the query for the store's own triples are its blank nodes. -/
theorem mem_slots_ownQuery {name : String} : name ∈ slots (ownQuery s) ↔
    ∃ t ∈ s.toList, ∃ b, t.Mentions b ∧ name = "_:" ++ b.label := by
  unfold ownQuery
  simp only [mem_slots_asking, mem_vars_patternOf, mem_sortedDistinct]

/-- A coherent store has the row of own blank nodes among the rows that it is asked for. -/
theorem ownRow_mem_ownQuery (hs : s.IsCoherent) : ownRow (slots (ownQuery s)) ∈
    groupSolutions (envOf s (ownQuery s)) (ownQuery s).pattern
      (.unbound (slots (ownQuery s)).length) := by
  refine @ownRow_mem_groupSolutions _ (envOf s (ownQuery s)) hs (fun t ht => ?_)
    (nodup_slots _) fun _ => mem_slots_asking
  exact (Store.mem_toList hs).mp (mem_sortedDistinct.mp ht)

/-- A reachable store of well-formed triples answers yes to the query that is read from the lines
of its triples. -/
theorem answersItself (hs : s.IsReachable) (hterms : ∀ t ∈ s.toList, t.IsWellFormed) :
    AnswersItself s := by
  have hread : Query.read ("ASK \x7b " ++ Turtle.writeLines s.toList ++ " \x7d") =
      .ok (ownQuery s) := Query.read_lines hterms
  have hrow := ownRow_mem_ownQuery hs.isCoherent
  have hplannable := (isRunnable_slots (read_placed hread)).pattern
  refine ⟨hread, ?_, fun _ => mem_slots_ownQuery, _, _, planRows_of_isPlannable hplannable _, hrow,
    fun t ht b hb => value?_ownRow (mem_slots_ownQuery.mpr ⟨t, ht, b, hb, rfl⟩)⟩
  have hinhabited := List.isEmpty_eq_false_iff_exists_mem.mpr ⟨_, hrow⟩
  have hanswer : answerOf (envOf s (ownQuery s)) (ownQuery s) = .boolean true :=
    congrArg (fun isEmpty => Answer.boolean !isEmpty) hinhabited
  rw [execute_eq s (read_placed hread), hanswer]

/-- Two blank nodes that know each other, one that knows itself, and a literal with a brace. -/
def circle : List Triple :=
  let knows : Iri := ⟨"http://example.org/knows"⟩
  [⟨.blank ⟨"a"⟩, knows, .blank ⟨"b"⟩⟩, ⟨.blank ⟨"b"⟩, knows, .blank ⟨"a"⟩⟩,
    ⟨.blank ⟨"c"⟩, knows, .blank ⟨"c"⟩⟩,
    ⟨.blank ⟨"a"⟩, ⟨"http://example.org/says"⟩, .literal ⟨"\x7d .", .tagged "en"⟩⟩]

/-- A store that holds the circle answers itself. -/
theorem answersItself_circle :
    ((Store.empty ⟨0, 1⟩).performAll [.extend circle]).2.IsReachable ∧
      (∀ t ∈ ((Store.empty ⟨0, 1⟩).performAll [.extend circle]).2.toList, t.IsWellFormed) ∧
      AnswersItself ((Store.empty ⟨0, 1⟩).performAll [.extend circle]).2 := by
  have hreachable : ((Store.empty ⟨0, 1⟩).performAll [.extend circle]).2.IsReachable :=
    ⟨_, _, rfl⟩
  have htagged : Literal.tagged "\x7d ." "en" = .ok ⟨"\x7d .", .tagged "en"⟩ := rfl
  have hcircle : ∀ t ∈ circle, t.IsWellFormed := by
    intro t ht
    simp only [circle, List.mem_cons, List.not_mem_nil, or_false] at ht
    rcases ht with rfl | rfl | rfl | rfl
    · exact ⟨rfl, rfl, rfl⟩
    · exact ⟨rfl, rfl, rfl⟩
    · exact ⟨rfl, rfl, rfl⟩
    · exact ⟨rfl, rfl, .tagged htagged⟩
  have hstored := (Store.holdsTerms_empty ⟨0, 1⟩).extend hcircle
  have hterms : ∀ t ∈ ((Store.empty ⟨0, 1⟩).performAll [.extend circle]).2.toList,
      t.IsWellFormed := fun t ht =>
    hstored.wellFormed t ((Store.mem_toList hreachable.isCoherent).mp ht)
  exact ⟨hreachable, hterms, answersItself hreachable hterms⟩

end Asking

end RdfStore.Eval
