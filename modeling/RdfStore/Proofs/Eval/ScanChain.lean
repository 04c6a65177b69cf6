import RdfStore.Proofs.Eval.GroupMeaning
import RdfStore.Proofs.Eval.Scan
import RdfStore.Proofs.Store.Refinement

/-!
# Chains of scans

The solutions of triple patterns from a seed are the extensions of the seed that give terms
to the variables of the patterns, and to no others, and that make a stored triple of every
pattern. A chain finds each once, in whatever order the patterns stand, because a solution
determines the solutions that it went through.
-/

set_option autoImplicit false

namespace RdfStore.Eval

open Query Solution

/-! ## Patterns under solutions -/

/-- The term at a place of a pattern under a solution. -/
def termAt (names : Slots) (row : Solution) : Place → Option Term
  | .var name => names.value? row name
  | .term t => some t
  | .blank _ => none

/-- Under a solution, a pattern is a stored triple. -/
def HoldsIn (env : Env) (row : Solution) (p : Pattern) : Prop :=
  ∃ t, env.store.contains t = true ∧ termAt env.names row p.subject = some t.subject.toTerm ∧
    termAt env.names row p.predicate = some (.iri t.predicate) ∧
    termAt env.names row p.object = some t.object

/-- A variable of the patterns has the slot. -/
def HasSlot (names : Slots) (patterns : List Pattern) (slot : Nat) : Prop :=
  ∃ p ∈ patterns, ∃ v ∈ p.vars, names.slot? v = some slot

/-- A solution of patterns from a seed: it extends the seed, gives terms to the variables of
the patterns beside those of the seed, and makes a stored triple of every pattern. -/
structure IsSolution (env : Env) (patterns : List Pattern) (seed row : Solution) : Prop where
  extended : seed.IsExtendedBy row
  binds : ∀ slot, row.Binds slot ↔ seed.Binds slot ∨ HasSlot env.names patterns slot
  holds : ∀ p ∈ patterns, HoldsIn env row p

variable {env : Env} {p : Pattern} {patterns : List Pattern} {row other : Solution}

/-- The position of a place asks for the term at the place, and has the slot of its
variable. -/
theorem ofPlace_spec {names : Slots} {place : Place} {position : Position}
    (h : Position.ofPlace names place = .ok position) :
    (∀ row, position.wanted row = termAt names row place) ∧
      ∀ n, n ∈ position.slots ↔ ∃ v, place.var? = some v ∧ names.slot? v = some n := by
  cases place with
  | var name =>
    rw [Position.ofPlace, Slots.slotOf] at h
    cases hslot : names.slot? name with
    | none =>
      rw [hslot] at h
      cases h
    | some n =>
      rw [hslot] at h
      cases h
      refine ⟨fun row => ?_, fun m => ?_⟩
      · rw [termAt, Slots.value?, hslot]
        rfl
      · simp only [Position.slots, List.mem_singleton, Place.var?, Option.some.injEq,
          exists_eq_left', hslot, eq_comm]
  | term t =>
    cases h
    refine ⟨fun row => rfl, fun m => ?_⟩
    simp only [Position.slots, List.not_mem_nil, Place.var?, reduceCtorEq, false_and,
      exists_false]
  | blank label => cases h

/-- A scan has the positions of the places of its pattern. -/
theorem ofPlace_of_ofPattern {names : Slots} {scan : Scan}
    (h : Scan.ofPattern names p = .ok scan) :
    Position.ofPlace names p.subject = .ok scan.subject ∧
      Position.ofPlace names p.predicate = .ok scan.predicate ∧
      Position.ofPlace names p.object = .ok scan.object := by
  obtain ⟨subject, hs, h⟩ := bind_eq_ok h
  obtain ⟨predicate, hp, h⟩ := bind_eq_ok h
  obtain ⟨object, ho, h⟩ := bind_eq_ok h
  cases h
  exact ⟨hs, hp, ho⟩

/-- A scan has the slots of the variables of its pattern. -/
theorem mem_slots_ofPattern {names : Slots} {scan : Scan}
    (h : Scan.ofPattern names p = .ok scan) (n : Nat) :
    n ∈ scan.slots ↔ ∃ v ∈ p.vars, names.slot? v = some n := by
  obtain ⟨hs, hp, ho⟩ := ofPlace_of_ofPattern h
  unfold Scan.slots Pattern.vars Pattern.places
  simp only [List.mem_append, (ofPlace_spec hs).2, (ofPlace_spec hp).2, (ofPlace_spec ho).2,
    List.mem_filterMap, List.mem_cons, List.not_mem_nil, or_false]
  constructor
  · rintro ((⟨v, hv, hn⟩ | ⟨v, hv, hn⟩) | ⟨v, hv, hn⟩)
    · exact ⟨v, ⟨_, Or.inl rfl, hv⟩, hn⟩
    · exact ⟨v, ⟨_, Or.inr (Or.inl rfl), hv⟩, hn⟩
    · exact ⟨v, ⟨_, Or.inr (Or.inr rfl), hv⟩, hn⟩
  · rintro ⟨v, ⟨place, rfl | rfl | rfl, hv⟩, hn⟩
    · exact Or.inl (Or.inl ⟨v, hv, hn⟩)
    · exact Or.inl (Or.inr ⟨v, hv, hn⟩)
    · exact Or.inr ⟨v, hv, hn⟩

/-- A scan gives the triple that its pattern is under a solution. -/
theorem gives_ofPattern {names : Slots} {scan : Scan} (h : Scan.ofPattern names p = .ok scan)
    (row : Solution) (m : Store.TermTriple) :
    scan.Gives row m ↔ termAt names row p.subject = some m.subject ∧
      termAt names row p.predicate = some m.predicate ∧
      termAt names row p.object = some m.object := by
  obtain ⟨hs, hp, ho⟩ := ofPlace_of_ofPattern h
  rw [← (ofPlace_spec hs).1, ← (ofPlace_spec hp).1, ← (ofPlace_spec ho).1]
  exact ⟨fun hg => ⟨hg.subject, hg.predicate, hg.object⟩, fun hg => ⟨hg.1, hg.2.1, hg.2.2⟩⟩

/-- The slots of a scan are among those of the variables. -/
theorem isWithin_ofPattern {names : Slots} {scan : Scan}
    (h : Scan.ofPattern names p = .ok scan) : scan.IsWithin names.length := by
  have hslot : ∀ n ∈ scan.slots, n < names.length := by
    intro n hn
    obtain ⟨v, -, hv⟩ := (mem_slots_ofPattern h n).mp hn
    exact lt_of_slot? hv
  unfold Scan.slots at hslot
  refine ⟨fun n hn => hslot n ?_, fun n hn => hslot n ?_, fun n hn => hslot n ?_⟩
  · exact List.mem_append_left _ (List.mem_append_left _ hn)
  · exact List.mem_append_left _ (List.mem_append_right _ hn)
  · exact List.mem_append_right _ hn

/-! ## Joining -/

/-- A solution that a pattern extends another to is a solution of this pattern. -/
theorem matchSolutions_sound (hs : env.store.IsCoherent) (hrow : row.length = env.names.length)
    (h : other ∈ matchSolutions env p row) :
    row.IsExtendedBy other ∧ HoldsIn env other p ∧
      ∀ n, other.Binds n ↔ row.Binds n ∨ ∃ v ∈ p.vars, env.names.slot? v = some n := by
  unfold matchSolutions at h
  cases hscan : Scan.ofPattern env.names p with
  | error e =>
    rw [hscan] at h
    cases h
  | ok scan =>
    rw [hscan] at h
    have hwidth := isWithin_ofPattern hscan
    rw [← hrow] at hwidth
    obtain ⟨hext, hbinds, t, ht, hgives⟩ := Scan.rows_sound hs hwidth h
    refine ⟨hext, ⟨t, ht, (gives_ofPattern hscan other _).mp hgives⟩, fun n => ?_⟩
    rw [hbinds, mem_slots_ofPattern hscan]

/-- A solution under which the pattern holds extends one that the pattern extends the row
to. -/
theorem matchSolutions_complete (hs : env.store.IsCoherent)
    (hrow : row.length = env.names.length) (hp : IsScannable env.names p)
    (hext : row.IsExtendedBy other) (h : HoldsIn env other p) :
    ∃ middle ∈ matchSolutions env p row, middle.IsExtendedBy other := by
  obtain ⟨scan, hscan⟩ := hp
  obtain ⟨t, ht, hterms⟩ := h
  have hwidth := isWithin_ofPattern hscan
  rw [← hrow] at hwidth
  unfold matchSolutions
  rw [hscan]
  exact Scan.rows_complete hs hwidth hext ht ((gives_ofPattern hscan other _).mpr hterms)

/-- A pattern extends a solution to no solution twice. -/
theorem matchSolutions_nodup (hs : env.store.IsCoherent) (hrow : row.length = env.names.length) :
    (matchSolutions env p row).Nodup := by
  unfold matchSolutions
  cases hscan : Scan.ofPattern env.names p with
  | error e => exact List.nodup_nil
  | ok scan =>
    have hwidth := isWithin_ofPattern hscan
    rw [← hrow] at hwidth
    exact Scan.rows_nodup hs hwidth

/-- A pattern that holds stays so under extensions. -/
theorem HoldsIn.mono (h : HoldsIn env row p) (hext : row.IsExtendedBy other) :
    HoldsIn env other p := by
  have hplace : ∀ {place : Place} {t : Term}, termAt env.names row place = some t →
      termAt env.names other place = some t := by
    intro place t ht
    cases place with
    | var name =>
      obtain ⟨slot, hslot, hget⟩ := Option.bind_eq_some_iff.mp ht
      exact Option.bind_eq_some_iff.mpr ⟨slot, hslot, hext.get?_eq slot t hget⟩
    | term u => exact ht
    | blank label => exact ht
  obtain ⟨t, ht, hsub, hpred, hobj⟩ := h
  exact ⟨t, ht, hplace hsub, hplace hpred, hplace hobj⟩

/-- The slots of patterns are those of the first one and those of the others. -/
theorem hasSlot_cons {names : Slots} {rest : List Pattern} {n : Nat} :
    HasSlot names (p :: rest) n ↔
      (∃ v ∈ p.vars, names.slot? v = some n) ∨ HasSlot names rest n := by
  unfold HasSlot
  rw [List.exists_mem_cons_iff]

/-- The solutions of patterns are those of the others from where the first one leads. -/
theorem isSolution_cons (hs : env.store.IsCoherent) {rest : List Pattern}
    (hrow : row.length = env.names.length) (hp : IsScannable env.names p) :
    IsSolution env (p :: rest) row other ↔
      ∃ middle ∈ matchSolutions env p row, IsSolution env rest middle other := by
  constructor
  · rintro ⟨hext, hbinds, hholds⟩
    have hfirst := hholds p List.mem_cons_self
    obtain ⟨middle, hmem, hmiddle⟩ := matchSolutions_complete hs hrow hp hext hfirst
    obtain ⟨-, -, hmiddleBinds⟩ := matchSolutions_sound hs hrow hmem
    refine ⟨middle, hmem, hmiddle, fun n => ?_, fun q hq => ?_⟩
    · rw [hbinds, hmiddleBinds, hasSlot_cons, or_assoc]
    · exact hholds q (List.mem_cons_of_mem _ hq)
  · rintro ⟨middle, hmem, hmiddle, hbinds, hholds⟩
    obtain ⟨hext, hfirst, hmiddleBinds⟩ := matchSolutions_sound hs hrow hmem
    refine ⟨hext.trans hmiddle, fun n => ?_, fun q hq => ?_⟩
    · rw [hbinds, hmiddleBinds, hasSlot_cons, or_assoc]
    · rcases List.mem_cons.mp hq with rfl | hq
      · exact hfirst.mono hmiddle
      · exact hholds q hq

/-- Without patterns the seed is the only solution. -/
theorem isSolution_nil : IsSolution env [] row other ↔ other = row := by
  constructor
  · rintro ⟨hext, hbinds, -⟩
    refine eq_of_isExtendedBy (.refl other) hext fun n => ?_
    rw [hbinds]
    simp only [HasSlot, List.not_mem_nil, false_and, exists_false, or_false]
  · rintro rfl
    refine ⟨.refl other, fun n => ?_, fun q hq => absurd hq List.not_mem_nil⟩
    simp only [HasSlot, List.not_mem_nil, false_and, exists_false, or_false]

/-- Nested loops over patterns begin with the first one. -/
theorem joinSolutions_cons (env : Env) (p : Pattern) (rest : List Pattern)
    (rows : List Solution) :
    joinSolutions env (p :: rest) rows =
      joinSolutions env rest (rows.flatMap (matchSolutions env p)) := rfl

/-- Patterns keep the width of solutions. -/
theorem length_of_mem_flatMap (hs : env.store.IsCoherent) {rows : List Solution}
    (hrows : ∀ row ∈ rows, row.length = env.names.length) :
    ∀ row ∈ rows.flatMap (matchSolutions env p), row.length = env.names.length := by
  intro row hrow
  obtain ⟨first, hfirst, hmem⟩ := List.mem_flatMap.mp hrow
  obtain ⟨hext, -⟩ := matchSolutions_sound hs (hrows first hfirst) hmem
  rw [hext.length_eq, hrows first hfirst]

/-- Nested loops give exactly the solutions of the patterns from the rows. -/
theorem mem_joinSolutions (hs : env.store.IsCoherent)
    (hp : ∀ p ∈ patterns, IsScannable env.names p) {rows : List Solution}
    (hrows : ∀ row ∈ rows, row.length = env.names.length) :
    other ∈ joinSolutions env patterns rows ↔ ∃ row ∈ rows, IsSolution env patterns row other := by
  induction patterns generalizing rows with
  | nil =>
    show other ∈ rows ↔ _
    simp only [isSolution_nil, exists_eq_right']
  | cons p rest ih =>
    rw [joinSolutions_cons, ih (fun q hq => hp q (List.mem_cons_of_mem _ hq))
      (length_of_mem_flatMap hs hrows)]
    constructor
    · rintro ⟨middle, hmiddle, hsol⟩
      obtain ⟨row, hrow, hmem⟩ := List.mem_flatMap.mp hmiddle
      refine ⟨row, hrow, ?_⟩
      exact (isSolution_cons hs (hrows row hrow) (hp p List.mem_cons_self)).mpr
        ⟨middle, hmem, hsol⟩
    · rintro ⟨row, hrow, hsol⟩
      obtain ⟨middle, hmem, hsol⟩ :=
        (isSolution_cons hs (hrows row hrow) (hp p List.mem_cons_self)).mp hsol
      exact ⟨middle, List.mem_flatMap.mpr ⟨row, hrow, hmem⟩, hsol⟩

/-- Nested loops over different rows with terms in the same slots give no solution twice: a
solution and these slots determine the row that it came from. -/
theorem joinSolutions_nodup (hs : env.store.IsCoherent) {rows : List Solution}
    (hrows : ∀ row ∈ rows, row.length = env.names.length) (hdistinct : rows.Nodup)
    {slots : Nat → Prop} (hbinds : ∀ row ∈ rows, ∀ n, row.Binds n ↔ slots n) :
    (joinSolutions env patterns rows).Nodup := by
  induction patterns generalizing rows slots with
  | nil => exact hdistinct
  | cons p rest ih =>
    rw [joinSolutions_cons]
    have hnew : ∀ r ∈ rows.flatMap (matchSolutions env p), ∀ n, r.Binds n ↔
        slots n ∨ ∃ v ∈ p.vars, env.names.slot? v = some n := by
      intro r hr n
      obtain ⟨row, hrow, hmem⟩ := List.mem_flatMap.mp hr
      obtain ⟨-, -, hr⟩ := matchSolutions_sound hs (hrows row hrow) hmem
      rw [hr, hbinds row hrow]
    refine ih (length_of_mem_flatMap hs hrows) ?_ hnew
    refine List.nodup_flatMap.mpr ⟨fun row hrow => matchSolutions_nodup hs (hrows row hrow), ?_⟩
    -- a solution of two rows would make them equal, as they bind the same slots
    refine hdistinct.imp_of_mem fun {a b} ha hb hne => ?_
    intro r hra hrb
    obtain ⟨hexta, -⟩ := matchSolutions_sound hs (hrows a ha) hra
    obtain ⟨hextb, -⟩ := matchSolutions_sound hs (hrows b hb) hrb
    refine hne (eq_of_isExtendedBy hexta hextb fun n => ?_)
    rw [hbinds a ha, hbinds b hb]

/-! ## Chains -/

/-- Solutions do not depend on the order of the patterns. -/
theorem isSolution_perm {order : List Pattern} (h : order.Perm patterns) :
    IsSolution env order row other ↔ IsSolution env patterns row other := by
  have hslot : ∀ n, HasSlot env.names order n ↔ HasSlot env.names patterns n := by
    intro n
    unfold HasSlot
    exact exists_congr fun q => and_congr_left fun _ => h.mem_iff
  constructor
  · rintro ⟨hext, hbinds, hholds⟩
    refine ⟨hext, fun n => ?_, fun q hq => hholds q (h.mem_iff.mpr hq)⟩
    rw [hbinds, hslot]
  · rintro ⟨hext, hbinds, hholds⟩
    refine ⟨hext, fun n => ?_, fun q hq => hholds q (h.mem_iff.mp hq)⟩
    rw [hbinds, hslot]

/-- Draining a chain of scans from a seed gives the nested loops over its patterns. -/
theorem drain_planScans (env : Env) (hp : ∀ p ∈ patterns, IsScannable env.names p)
    (seed : Solution) :
    planRows (planScans env patterns (.ofList [seed])) =
      .ok (joinSolutions env patterns [seed]) := by
  rw [planRows_eq, planScans_rows, Cursor.rows_ofList, scanRows_ofList env hp, Except.bind,
    Rows.toExcept_ofList]

/-- A list has each solution of patterns from a seed exactly once. -/
def ListsSolutions (env : Env) (patterns : List Pattern) (seed : Solution)
    (rows : List Solution) : Prop :=
  rows.Nodup ∧ ∀ row, row ∈ rows ↔ IsSolution env patterns seed row

/-- On a reachable store, a chain of scans for patterns whose variables have slots, from a
seed as wide as the slots, gives each solution of the patterns exactly once, in the join order
or in any other; so the order only arranges the rows. -/
theorem planScans_exact (env : Env) (patterns : List Pattern) (seed : Solution)
    (hs : env.store.IsReachable) (hv : ∀ p ∈ patterns, ∀ v ∈ p.vars, v ∈ env.names)
    (hl : labelsOf patterns = []) (hseed : seed.length = env.names.length)
    (bound : List String) :
    ∃ rows, planRows (planScans env (joinOrder bound patterns) (.ofList [seed])) = .ok rows ∧
      ListsSolutions env patterns seed rows ∧
      ∀ order, order.Perm patterns →
        ∃ rows', planRows (planScans env order (.ofList [seed])) = .ok rows' ∧
          ListsSolutions env patterns seed rows' ∧ rows'.Perm rows := by
  have hp : ∀ p ∈ patterns, IsScannable env.names p := fun p hmem =>
    ofPattern_of_covered (hv p hmem) (List.flatMap_eq_nil_iff.mp hl p hmem)
  have hlists : ∀ order, order.Perm patterns →
      planRows (planScans env order (.ofList [seed])) = .ok (joinSolutions env order [seed]) ∧
        ListsSolutions env patterns seed (joinSolutions env order [seed]) := by
    intro order horder
    have hscan : ∀ p ∈ order, IsScannable env.names p := fun p hmem =>
      hp p (horder.mem_iff.mp hmem)
    have hrows : ∀ row ∈ [seed], row.length = env.names.length := by
      intro row hrow
      rw [List.mem_singleton.mp hrow, hseed]
    have hbinds : ∀ row ∈ [seed], ∀ n, row.Binds n ↔ seed.Binds n := by
      intro row hrow n
      rw [List.mem_singleton.mp hrow]
    refine ⟨drain_planScans env hscan seed, ?_, fun row => ?_⟩
    · exact joinSolutions_nodup hs.isCoherent hrows (List.nodup_singleton seed) hbinds
    · rw [mem_joinSolutions hs.isCoherent hscan hrows, ← isSolution_perm horder]
      simp only [List.mem_singleton, exists_eq_left]
  obtain ⟨hdrain, hdistinct, hmem⟩ := hlists _ (joinOrder_perm bound patterns)
  refine ⟨_, hdrain, ⟨hdistinct, hmem⟩, fun order horder => ?_⟩
  obtain ⟨hdrain', hdistinct', hmem'⟩ := hlists order horder
  refine ⟨_, hdrain', ⟨hdistinct', hmem'⟩, ?_⟩
  rw [List.perm_ext_iff_of_nodup hdistinct' hdistinct]
  intro row
  rw [hmem, hmem']

/-- Who knows someone who knows someone. -/
def acquaintances : List Pattern :=
  let knows : Place := .term (.iri ⟨"http://example.org/knows"⟩)
  [⟨.var "x", knows, .var "y"⟩, ⟨.var "y", knows, .var "z"⟩]

/-- On a store that was filled, cleared and filled again, the chain for two patterns that
share a variable gives each of their solutions exactly once. -/
theorem planScans_exact_acquaintances :
    Store.refilled.IsReachable ∧ ∃ rows,
      planRows (planScans ⟨Store.refilled, ["x", "y", "z"]⟩ (joinOrder [] acquaintances)
        (.ofList [.unbound 3])) = .ok rows ∧
      ListsSolutions ⟨Store.refilled, ["x", "y", "z"]⟩ acquaintances (.unbound 3) rows := by
  have h : Store.refilled.IsReachable := ⟨_, _, rfl⟩
  obtain ⟨rows, hrows, hlists, -⟩ :=
    planScans_exact ⟨Store.refilled, ["x", "y", "z"]⟩ acquaintances (.unbound 3) h
      (by decide) (by decide) rfl []
  exact ⟨h, rows, hrows, hlists⟩

end RdfStore.Eval
