import RdfStore.Proofs.Store.FreshBlank
import RdfStore.Proofs.Term.Renaming

/-!
# Batches

A batch is added under new names for its blank nodes. The names grow as the batch is gone
through: what is named keeps its name, different nodes have different names, and no name is
mentioned by a triple that was stored before the batch. In the end the batch is stored as it
is under the names of all its blank nodes.
-/

set_option autoImplicit false

namespace RdfStore.Store

variable {s : Store}

/-! ## Adding many triples -/

/-- Every triple that is new counts. -/
theorem count_add (s : Store) (t : Triple) :
    (s.add t).2.count = if (s.add t).1 then s.count + 1 else s.count := by
  rw [add_eq]
  obtain ⟨k, d⟩ := s.dictionary.internTriple t
  dsimp only
  split
  · rfl
  · rename_i h
    show (s.spo.insert _).size = _
    rw [Std.TreeSet.size_insert, if_neg h]
    rfl

/-- Adding triples begins with the first one. -/
theorem extend_cons (s : Store) (t : Triple) (rest : List Triple) :
    s.extend (t :: rest) =
      (if (s.add t).1 then ((s.add t).2.extend rest).1 + 1 else ((s.add t).2.extend rest).1,
        ((s.add t).2.extend rest).2) := by
  rw [extend]

/-- Adding triples keeps a store coherent. -/
theorem isCoherent_extend (hs : s.IsCoherent) (triples : List Triple) :
    (s.extend triples).2.IsCoherent := by
  induction triples generalizing s with
  | nil => exact hs
  | cons t rest ih =>
    rw [extend_cons]
    exact ih (isCoherent_add hs t)

/-- The members after adding triples are these and the members before. -/
theorem contains_extend (hs : s.IsCoherent) {triples : List Triple} {u : Triple} :
    (s.extend triples).2.contains u = true ↔ u ∈ triples ∨ s.contains u = true := by
  induction triples generalizing s with
  | nil => simp only [extend, List.not_mem_nil, false_or]
  | cons t rest ih =>
    rw [extend_cons, ih (isCoherent_add hs t), contains_add hs, List.mem_cons, or_left_comm,
      or_assoc]

/-- Adding triples counts those that are new. -/
theorem count_extend (s : Store) (triples : List Triple) :
    (s.extend triples).2.count = s.count + (s.extend triples).1 := by
  induction triples generalizing s with
  | nil => rfl
  | cons t rest ih =>
    rw [extend_cons, ih, count_add]
    dsimp only
    split <;> omega

/-! ## Names -/

/-- A blank node that a stored triple mentions is a term of the store. -/
theorem containsTerm_of_mentions {t : Triple} {node : BlankNode} (ht : s.contains t = true)
    (hm : t.Mentions node) : s.containsTerm (.blank node) = true := by
  obtain ⟨k, hk, -⟩ := contains_iff.mp ht
  unfold containsTerm
  rcases hm with hsub | hobj
  · have h := hk.subject
    rw [hsub] at h
    exact Option.isSome_iff_exists.mpr ⟨_, h⟩
  · have h := hk.object
    rw [hobj] at h
    exact Option.isSome_iff_exists.mpr ⟨_, h⟩

/-- No stored triple mentions a fresh blank node. -/
theorem not_mentions_freshBlank (hs : s.IsCoherent) {t : Triple} (ht : s.contains t = true) :
    ¬t.Mentions s.freshBlank.1 := by
  intro hm
  have hunknown := containsTerm_freshBlank hs
  rw [containsTerm_of_mentions ht hm] at hunknown
  cases hunknown

namespace Renaming

/-- The new name of a blank node; a node without one keeps its own. -/
def apply (names : Renaming) (node : BlankNode) : BlankNode := (names.lookup node).getD node

/-- Every name of one list is in the other. -/
def IsKeptBy (names names' : Renaming) : Prop :=
  ∀ node new, names.lookup node = some new → names'.lookup node = some new

/-- The blank nodes of a triple have names. -/
def Covers (names : Renaming) (t : Triple) : Prop :=
  ∀ node, t.Mentions node → ∃ new, names.lookup node = some new

/-- Names that are kept by a list are kept by those that keep it. -/
theorem IsKeptBy.trans {a b c : Renaming} (hab : a.IsKeptBy b) (hbc : b.IsKeptBy c) :
    a.IsKeptBy c :=
  fun node new h => hbc node new (hab node new h)

/-- A triple that is covered stays so when the names are kept. -/
theorem Covers.mono {names names' : Renaming} {t : Triple} (h : names.Covers t)
    (hkept : names.IsKeptBy names') : names'.Covers t := by
  intro node hm
  obtain ⟨new, hnew⟩ := h node hm
  exact ⟨new, hkept node new hnew⟩

/-- The name that is looked up is the new one. -/
theorem apply_of_lookup {names : Renaming} {node new : BlankNode}
    (h : names.lookup node = some new) : names.apply node = new := by
  unfold apply
  rw [h]
  rfl

/-- A node that has a name has the same one when the names are kept. -/
theorem IsKeptBy.apply_eq {names names' : Renaming} (hkept : names.IsKeptBy names')
    {node : BlankNode} (h : ∃ new, names.lookup node = some new) :
    names'.apply node = names.apply node := by
  obtain ⟨new, hnew⟩ := h
  rw [apply_of_lookup hnew, apply_of_lookup (hkept node new hnew)]

end Renaming

/-! ## One step -/

/-- A store in the middle of a batch that began at `base`, and the names that were given
since: different nodes have different ones, which were named since, and no triple of `base`
mentions one. -/
structure IsMidway (base s : Store) (names : Renaming) : Prop where
  coherent : s.IsCoherent
  grown : ∀ t, base.contains t = true → s.contains t = true
  attempts : base.blankCounter ≤ s.blankCounter
  injective : ∀ a b new, names.lookup a = some new → names.lookup b = some new → a = b
  named : ∀ a new, names.lookup a = some new →
    IsNamedWithin base.blankCounter s.blankCounter new
  unused : ∀ a new, names.lookup a = some new →
    ∀ t, base.contains t = true → ¬t.Mentions new

/-- A batch begins without names. -/
theorem isMidway_start (hs : s.IsCoherent) : IsMidway s s [] where
  coherent := hs
  grown _ h := h
  attempts := Nat.le_refl _
  injective _ _ _ h := nomatch h
  named _ _ h := nomatch h
  unused _ _ h := nomatch h

/-- Naming takes a store and names to others: all names are kept, and only the clock and the
attempts of the store change. -/
structure Naming (base s : Store) (names : Renaming) (s' : Store) (names' : Renaming) :
    Prop where
  midway : IsMidway base s' names'
  kept : names.IsKeptBy names'
  state : ∃ clock attempts, s' = s.renamed clock attempts

/-- Nothing has to be named. -/
theorem Naming.refl {base : Store} {names : Renaming} (h : IsMidway base s names) :
    Naming base s names s names :=
  ⟨h, fun _ _ hnew => hnew, s.clock, s.blankCounter, rfl⟩

/-- Naming goes on from where it was left. -/
theorem Naming.trans {base s' s'' : Store} {names names' names'' : Renaming}
    (h : Naming base s names s' names') (h' : Naming base s' names' s'' names'') :
    Naming base s names s'' names'' := by
  obtain ⟨clock, attempts, rfl⟩ := h.state
  obtain ⟨clock', attempts', rfl⟩ := h'.state
  exact ⟨h'.midway, h.kept.trans h'.kept, clock', attempts', rfl⟩

/-- A fresh name in front keeps all that holds in the middle of a batch. -/
theorem IsMidway.cons {base : Store} {names : Renaming} (h : IsMidway base s names)
    (node : BlankNode) : IsMidway base s.freshBlank.2 ((node, s.freshBlank.1) :: names) := by
  obtain ⟨clock, attempts, hstate, hname⟩ := freshBlank_spec s
  have hunused : ∀ t, s.contains t = true → ¬t.Mentions s.freshBlank.1 :=
    fun _ ht => not_mentions_freshBlank h.coherent ht
  rw [hstate]
  generalize s.freshBlank.1 = new at hname hunused
  -- the fresh name was not given before, because it carries a later attempt
  have hold : ∀ a b, names.lookup a = some b → b ≠ new :=
    fun a b hab => ne_of_isNamedWithin (h.named a b hab) hname
  have hlater : s.blankCounter ≤ attempts := by
    obtain ⟨-, n, hlow, hhigh, -⟩ := hname
    omega
  refine ⟨isCoherent_renamed h.coherent _ _, h.grown, Nat.le_trans h.attempts hlater,
    lookup_cons_injective h.injective hold, ?_, ?_⟩
  · intro a b hab
    rcases lookup_cons_cases hab with ⟨-, rfl⟩ | hab
    · exact hname.mono h.attempts (Nat.le_refl _)
    · exact (h.named a b hab).mono (Nat.le_refl _) hlater
  · intro a b hab t ht
    rcases lookup_cons_cases hab with ⟨-, rfl⟩ | hab
    · exact hunused t (h.grown t ht)
    · exact h.unused a b hab t ht

/-- Renaming a node names it. -/
theorem rename_spec {base : Store} {names : Renaming} (h : IsMidway base s names)
    (node : BlankNode) :
    Naming base s names (s.rename names node).2.2 (s.rename names node).2.1 ∧
      (s.rename names node).2.1.lookup node = some (s.rename names node).1 := by
  unfold rename
  cases hlookup : names.lookup node with
  | some new => exact ⟨Naming.refl h, hlookup⟩
  | none =>
    obtain ⟨clock, attempts, hstate, -⟩ := freshBlank_spec s
    refine ⟨⟨h.cons node, ?_, clock, attempts, hstate⟩, List.lookup_cons_self⟩
    exact fun a b hab => lookup_cons_of_lookup hlookup hab

/-- Renaming a subject names its blank node and gives the subject its new form. -/
theorem renameSubject_spec {base : Store} {names : Renaming} (h : IsMidway base s names)
    (sub : Subject) :
    Naming base s names (s.renameSubject names sub).2.2 (s.renameSubject names sub).2.1 ∧
      (∀ node, sub = .blank node →
        ∃ new, (s.renameSubject names sub).2.1.lookup node = some new) ∧
      (s.renameSubject names sub).1 =
        sub.mapBlank (s.renameSubject names sub).2.1.apply := by
  cases sub with
  | iri node => exact ⟨Naming.refl h, fun _ hb => (nomatch hb), rfl⟩
  | blank node =>
    obtain ⟨hnaming, hnew⟩ := rename_spec h node
    refine ⟨hnaming, ?_, ?_⟩
    · intro a ha
      cases ha
      exact ⟨_, hnew⟩
    · exact congrArg Subject.blank (Renaming.apply_of_lookup hnew).symm

/-- Renaming a term names its blank node and gives the term its new form. -/
theorem renameTerm_spec {base : Store} {names : Renaming} (h : IsMidway base s names)
    (x : Term) :
    Naming base s names (s.renameTerm names x).2.2 (s.renameTerm names x).2.1 ∧
      (∀ node, x = .blank node → ∃ new, (s.renameTerm names x).2.1.lookup node = some new) ∧
      (s.renameTerm names x).1 = x.mapBlank (s.renameTerm names x).2.1.apply := by
  cases x with
  | iri node => exact ⟨Naming.refl h, fun _ hb => (nomatch hb), rfl⟩
  | literal value => exact ⟨Naming.refl h, fun _ hb => (nomatch hb), rfl⟩
  | blank node =>
    obtain ⟨hnaming, hnew⟩ := rename_spec h node
    refine ⟨hnaming, ?_, ?_⟩
    · intro a ha
      cases ha
      exact ⟨_, hnew⟩
    · exact congrArg Term.blank (Renaming.apply_of_lookup hnew).symm

/-- The triple in its new form, the names after it, and the store before it is added. -/
def renameTriple (s : Store) (names : Renaming) (t : Triple) : Triple × Renaming × Store :=
  let (subject, names, s) := s.renameSubject names t.subject
  let (object, names, s) := s.renameTerm names t.object
  (⟨subject, t.predicate, object⟩, names, s)

/-- Renaming a triple names its blank nodes and gives the triple its new form. -/
theorem renameTriple_spec {base : Store} {names : Renaming} (h : IsMidway base s names)
    (t : Triple) :
    Naming base s names (s.renameTriple names t).2.2 (s.renameTriple names t).2.1 ∧
      (s.renameTriple names t).2.1.Covers t ∧
      (s.renameTriple names t).1 = t.mapBlank (s.renameTriple names t).2.1.apply := by
  obtain ⟨hsub, hsubNew, hsubEq⟩ := renameSubject_spec h t.subject
  obtain ⟨hobj, hobjNew, hobjEq⟩ := renameTerm_spec hsub.midway t.object
  refine ⟨hsub.trans hobj, ?_, ?_⟩
  · rintro node (hm | hm)
    · obtain ⟨new, hnew⟩ := hsubNew node hm
      exact ⟨new, hobj.kept node new hnew⟩
    · exact hobjNew node hm
  · have hform : (s.renameTriple names t).1 = ⟨(s.renameSubject names t.subject).1, t.predicate,
        (renameTerm (s.renameSubject names t.subject).2.2 (s.renameSubject names t.subject).2.1
          t.object).1⟩ := rfl
    rw [hform, hsubEq, hobjEq, Subject.mapBlank_congr fun node hm =>
      (hobj.kept.apply_eq (hsubNew node hm)).symm]
    rfl

/-! ## The whole batch -/

/-- A batch adds its first triple in the new form and goes on with the others. -/
theorem insertRenamed_cons (s : Store) (names : Renaming) (t : Triple) (rest : List Triple) :
    s.insertRenamed names (t :: rest) =
      let (new, names, s) := s.renameTriple names t
      let (isNew, s) := s.add new
      let (added, s) := s.insertRenamed names rest
      (if isNew then added + 1 else added, s) := rfl

/-- Adding keeps all that holds in the middle of a batch. -/
theorem IsMidway.add {base : Store} {names : Renaming} (h : IsMidway base s names)
    (t : Triple) : IsMidway base (s.add t).2 names := by
  have hcount : (s.add t).2.blankCounter = s.blankCounter := (add_clock s t).2
  refine ⟨isCoherent_add h.coherent t, ?_, ?_, h.injective, ?_, h.unused⟩
  · intro u hu
    exact (contains_add h.coherent).mpr (Or.inr (h.grown u hu))
  · rw [hcount]
    exact h.attempts
  · rw [hcount]
    exact h.named

/-- A batch is stored in its new form under names that keep the ones from before and name
all of its blank nodes; the triples that are new are counted. -/
theorem insertRenamed_spec {base : Store} {names : Renaming} (h : IsMidway base s names)
    (batch : List Triple) :
    ∃ names' : Renaming, names.IsKeptBy names' ∧
      IsMidway base (s.insertRenamed names batch).2 names' ∧
      (∀ t ∈ batch, names'.Covers t) ∧
      (∀ u, (s.insertRenamed names batch).2.contains u = true ↔
        u ∈ batch.map (Triple.mapBlank names'.apply) ∨ s.contains u = true) ∧
      (s.insertRenamed names batch).2.count = s.count + (s.insertRenamed names batch).1 := by
  induction batch generalizing s names with
  | nil =>
    refine ⟨names, fun _ _ hnew => hnew, h, fun _ ht => absurd ht List.not_mem_nil, ?_, rfl⟩
    intro u
    simp only [insertRenamed, List.map_nil, List.not_mem_nil, false_or]
  | cons t rest ih =>
    have hspec := renameTriple_spec h t
    rw [insertRenamed_cons]
    generalize s.renameTriple names t = renamed at hspec ⊢
    obtain ⟨new, named, later⟩ := renamed
    dsimp only at hspec
    obtain ⟨hnaming, hcovers, hnew⟩ := hspec
    obtain ⟨clock, attempts, rfl⟩ := hnaming.state
    obtain ⟨names', hkept, hmidway, hrest, hmem, hcount⟩ := ih (hnaming.midway.add new)
    refine ⟨names', hnaming.kept.trans hkept, hmidway, ?_, ?_, ?_⟩
    · intro u hu
      rcases List.mem_cons.mp hu with rfl | hu
      · exact hcovers.mono hkept
      · exact hrest u hu
    · intro u
      -- the names after the whole batch still give the first triple the form it was stored in
      have hform : t.mapBlank names'.apply = new := by
        rw [hnew]
        exact Triple.mapBlank_congr fun node hm => hkept.apply_eq (hcovers node hm)
      rw [hmem, contains_add hnaming.midway.coherent, contains_renamed, List.map_cons,
        List.mem_cons, hform, or_left_comm, or_assoc]
    · rw [hcount, count_add, count_renamed]
      dsimp only
      split <;> omega

end RdfStore.Store
