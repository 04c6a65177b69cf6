import RdfStore.Proofs.Store.Refinement

/-!
# Batches stay apart

A batch is stored under names of its own. None of them is mentioned by a triple that was stored
before, and none was given before, to another batch or to a caller who asked for a fresh node,
because every name carries the number of its attempt and no call takes attempts back. So all
triples of a batch with blank nodes are new, and of its ground triples those that were not stored.
-/

set_option autoImplicit false

namespace RdfStore

namespace Triple

/-- A triple without blank nodes. -/
def IsGround (t : Triple) : Prop := ∀ node, ¬t.Mentions node

/-- A triple is ground if neither its subject nor its object is a blank node. -/
theorem isGround_iff {t : Triple} :
    t.IsGround ↔ t.subject.toTerm.isBlank = false ∧ t.object.isBlank = false := by
  obtain ⟨subject, predicate, object⟩ := t
  cases subject <;> cases object <;>
    simp [IsGround, Mentions, Subject.toTerm, Term.isBlank, forall_and]

instance : DecidablePred IsGround := fun _ => decidable_of_iff _ isGround_iff.symm

/-- A triple that is not ground mentions a blank node. -/
theorem exists_mentions_of_not_isGround {t : Triple} (h : ¬t.IsGround) :
    ∃ node, t.Mentions node := by
  unfold IsGround at h
  push Not at h
  exact h

/-- A ground triple is its own image. -/
theorem IsGround.mapBlank_eq {t : Triple} (h : t.IsGround) (f : BlankNode → BlankNode) :
    t.mapBlank f = t := by
  obtain ⟨subject, predicate, object⟩ := t
  cases subject with
  | blank node => exact absurd (Or.inl rfl) (h node)
  | iri name =>
    cases object with
    | blank node => exact absurd (Or.inr rfl) (h node)
    | iri _ | literal _ => rfl

end Triple

namespace Store

variable {s : Store} {set : Finset Triple} {batch : List Triple} {f : BlankNode → BlankNode}

/-! ## Counting a batch -/

/-- A renaming that is in scope tells the triples of the batch apart. -/
theorem IsScoped.isInjectiveOn (h : IsScoped set batch f) : IsInjectiveOn f batch := by
  rintro a b ⟨t, ht, ha⟩ ⟨u, hu, hb⟩ hab
  exact h.injective t ht u hu a b ha hb hab

/-- A triple with a blank node is not stored in its new form, whatever was stored before. -/
theorem IsScoped.mapBlank_notMem (h : IsScoped set batch f) {t : Triple} (ht : t ∈ batch)
    (hblank : ¬t.IsGround) : t.mapBlank f ∉ set := by
  obtain ⟨node, hnode⟩ := Triple.exists_mentions_of_not_isGround hblank
  intro hmem
  exact h.unused t ht node hnode _ hmem (hnode.mapBlank f)

/-- Of a batch in its new form, all triples with blank nodes are new, and the ground triples that
are not in the set. -/
theorem IsScoped.card_new (h : IsScoped set batch f) :
    ((batch.map (Triple.mapBlank f)).toFinset \ set).card =
      (batch.toFinset.filter fun t => ¬t.IsGround).card +
        (batch.toFinset.filter Triple.IsGround \ set).card := by
  -- the batch itself, restricted to the triples whose new form is new
  let new := batch.toFinset.filter fun t => t.mapBlank f ∉ set
  have himage : (batch.map (Triple.mapBlank f)).toFinset \ set =
      new.image (Triple.mapBlank f) := by
    ext u
    simp only [new, Finset.mem_sdiff, List.mem_toFinset, List.mem_map, Finset.mem_image,
      Finset.mem_filter]
    constructor
    · rintro ⟨⟨t, ht, rfl⟩, hnew⟩
      exact ⟨t, ⟨ht, hnew⟩, rfl⟩
    · rintro ⟨t, ⟨ht, hnew⟩, rfl⟩
      exact ⟨⟨t, ht, rfl⟩, hnew⟩
  have hdistinct : Set.InjOn (Triple.mapBlank f) new := by
    intro t ht u hu htu
    have hbatch : ∀ v ∈ new, v ∈ batch := fun v hv =>
      List.mem_toFinset.mp (Finset.mem_filter.mp hv).1
    exact h.isInjectiveOn.eq_of_mapBlank_eq (hbatch t ht) (hbatch u hu) htu
  have hground : new.filter Triple.IsGround = batch.toFinset.filter Triple.IsGround \ set := by
    ext t
    simp only [new, Finset.mem_filter, Finset.mem_sdiff]
    constructor
    · rintro ⟨⟨ht, hnew⟩, hground⟩
      rw [hground.mapBlank_eq] at hnew
      exact ⟨⟨ht, hground⟩, hnew⟩
    · rintro ⟨⟨ht, hground⟩, hnew⟩
      refine ⟨⟨ht, ?_⟩, hground⟩
      rwa [hground.mapBlank_eq]
  have hblank : (new.filter fun t => ¬t.IsGround) =
      batch.toFinset.filter fun t => ¬t.IsGround := by
    ext t
    simp only [new, Finset.mem_filter, List.mem_toFinset]
    constructor
    · rintro ⟨⟨ht, -⟩, hblank⟩
      exact ⟨ht, hblank⟩
    · rintro ⟨ht, hblank⟩
      exact ⟨⟨ht, h.mapBlank_notMem ht hblank⟩, hblank⟩
  rw [himage, Finset.card_image_of_injOn hdistinct,
    ← Finset.card_filter_add_card_filter_not Triple.IsGround, hground, hblank, Nat.add_comm]

/-! ## Attempts -/

/-- Adding triples tries no names. -/
theorem blankCounter_extend (s : Store) (triples : List Triple) :
    (s.extend triples).2.blankCounter = s.blankCounter := by
  induction triples generalizing s with
  | nil => rfl
  | cons t rest ih =>
    rw [extend_cons]
    exact (ih _).trans (add_clock s t).2

/-- From one store to another, with these replies on the way, no attempt is taken back, and every
node in the replies is named after one of the attempts in between. -/
structure Attempts (s : Store) (replies : List Reply) (s' : Store) : Prop where
  le : s.blankCounter ≤ s'.blankCounter
  named : ∀ node, .node node ∈ replies → IsNamedWithin s.blankCounter s'.blankCounter node

/-- A call that answers no node and tries no names. -/
theorem Attempts.of_eq {s' : Store} {reply : Reply} (hcount : s'.blankCounter = s.blankCounter)
    (hreply : ∀ node, reply ≠ .node node) : Attempts s [reply] s' := by
  refine ⟨hcount.ge, fun node hnode => ?_⟩
  exact absurd (List.mem_singleton.mp hnode).symm (hreply node)

/-- Calls go on with the attempts of those before. -/
theorem Attempts.trans {s' s'' : Store} {replies more : List Reply}
    (h : Attempts s replies s') (h' : Attempts s' more s'') :
    Attempts s (replies ++ more) s'' := by
  refine ⟨Nat.le_trans h.le h'.le, fun node hnode => ?_⟩
  rcases List.mem_append.mp hnode with hnode | hnode
  · exact (h.named node hnode).mono (Nat.le_refl _) h'.le
  · exact (h'.named node hnode).mono h.le (Nat.le_refl _)

/-- Every call only adds to the attempts. -/
theorem perform_attempts (hs : s.IsCoherent) (call : Call) :
    Attempts s [(s.perform call).1] (s.perform call).2 := by
  cases call with
  | add t => exact .of_eq (add_clock s t).2 fun _ => nofun
  | extend triples => exact .of_eq (blankCounter_extend s triples) fun _ => nofun
  | insertScoped batch =>
    obtain ⟨names, -, hmidway, -⟩ := insertRenamed_spec (isMidway_start hs) batch
    exact ⟨hmidway.attempts, fun node hnode => nomatch List.mem_singleton.mp hnode⟩
  | freshBlank =>
    obtain ⟨clock, attempts, hstate, hname⟩ := freshBlank_spec s
    have hcount : s.freshBlank.2.blankCounter = attempts := congrArg blankCounter hstate
    rw [← hcount] at hname
    have hle : s.blankCounter ≤ s.freshBlank.2.blankCounter := by
      obtain ⟨-, n, hlow, hhigh, -⟩ := hname
      omega
    refine ⟨hle, fun node hnode => ?_⟩
    cases List.mem_singleton.mp hnode
    exact hname
  | clear => exact .of_eq rfl fun _ => nofun
  | readClock => exact .of_eq rfl fun _ => nofun

/-- So do all calls of a run. -/
theorem performAll_attempts (hs : s.IsCoherent) (calls : List Call) :
    Attempts s (s.performAll calls).1 (s.performAll calls).2 := by
  induction calls generalizing s with
  | nil => exact ⟨Nat.le_refl _, fun _ hnode => absurd hnode List.not_mem_nil⟩
  | cons call rest ih =>
    exact (perform_attempts hs call).trans (ih (isCoherent_perform hs call))

/-! ## Adding a batch -/

/-- What adding a batch to the triples of a set answers and leaves: the batch is stored beside the
set under unused names, different ones for different blank nodes; the answer counts its triples
with blank nodes and those of its ground triples that are not in the set. -/
structure IsAddedTo (set : Finset Triple) (batch : List Triple) (f : BlankNode → BlankNode)
    (outcome : Nat × Store) : Prop where
  fresh : IsScoped set batch f
  stored : outcome.2.Represents (set ∪ (batch.map (Triple.mapBlank f)).toFinset)
  counted : outcome.1 = (batch.toFinset.filter fun t => ¬t.IsGround).card +
    (batch.toFinset.filter Triple.IsGround \ set).card

/-- A coherent store has its members, and a batch is added to them under names of the attempts
that adding it makes. -/
theorem exists_isAddedTo (hs : s.IsCoherent) (batch : List Triple) :
    ∃ set f, s.Represents set ∧ IsAddedTo set batch f (s.insertScoped batch) ∧
      ∀ t ∈ batch, ∀ a, t.Mentions a →
        IsNamedWithin s.blankCounter (s.insertScoped batch).2.blankCounter (f a) := by
  have hmembers : s.HasMembers s.toList.toFinset := fun t => by
    rw [List.mem_toFinset, mem_toList hs]
  obtain ⟨f, hscoped, hstored, hadded, hnamed⟩ := insertScoped_spec hs hmembers batch
  exact ⟨_, f, hmembers.represents hs,
    ⟨hscoped, hstored.represents (isCoherent_insertScoped hs batch), hadded.trans hscoped.card_new⟩,
    hnamed⟩

/-- In every run of a store a batch is added to the triples that are stored by then, and it shares
no blank node with what the store handed out before, nor with any batch that is added later,
whatever happens in between and whatever labels the batches use. -/
theorem insertScoped_apart {clock : Clock} {calls : List Call} {replies : List Reply}
    (h : (empty clock).performAll calls = (replies, s)) (batch : List Triple) :
    ∃ set f, s.Represents set ∧ IsAddedTo set batch f (s.insertScoped batch) ∧
      (∀ node, .node node ∈ replies → ∀ t ∈ batch, ∀ a, t.Mentions a → f a ≠ node) ∧
      ∀ (between : List Call) (later : Store) (batch' : List Triple),
        ((s.insertScoped batch).2.performAll between).2 = later →
        ∃ set' f', later.Represents set' ∧ IsAddedTo set' batch' f' (later.insertScoped batch') ∧
          ∀ t ∈ batch, ∀ a, t.Mentions a → ∀ u ∈ batch', ∀ b, u.Mentions b → f a ≠ f' b := by
  have hs : s.IsCoherent := by
    have hrun := isCoherent_performAll (isCoherent_empty clock) calls
    rwa [h] at hrun
  have hbefore := performAll_attempts (isCoherent_empty clock) calls
  rw [h] at hbefore
  obtain ⟨set, f, hset, hadded, hnamed⟩ := exists_isAddedTo hs batch
  refine ⟨set, f, hset, hadded, fun node hnode t ht a ha => ?_, ?_⟩
  · exact (ne_of_isNamedWithin (hbefore.named node hnode) (hnamed t ht a ha)).symm
  · rintro between later batch' rfl
    have hafter := isCoherent_insertScoped hs batch
    obtain ⟨set', f', hset', hadded', hnamed'⟩ :=
      exists_isAddedTo (isCoherent_performAll hafter between) batch'
    refine ⟨set', f', hset', hadded', fun t ht a ha u hu b hb => ?_⟩
    have hspan := (hnamed t ht a ha).mono (Nat.le_refl _) (performAll_attempts hafter between).le
    exact ne_of_isNamedWithin hspan (hnamed' u hu b hb)

/-- A ground triple. -/
def introduction : Triple :=
  ⟨.iri ⟨"http://example.org/ann"⟩, ⟨"http://example.org/knows"⟩, .iri ⟨"http://example.org/bob"⟩⟩

/-- A batch with a label that a store hands out first, and with a ground triple. -/
def rumour : List Triple :=
  [⟨.blank ⟨"t0n0"⟩, ⟨"http://example.org/knows"⟩, .blank ⟨"x"⟩⟩,
    ⟨.blank ⟨"x"⟩, ⟨"http://example.org/knows"⟩, .iri ⟨"http://example.org/ann"⟩⟩, introduction]

/-- A store hands out a label and has the ground triple. The batch that uses this label is added
twice: the first time its two other triples are new, and neither is the label the node that was
handed out nor is it the same node both times. -/
theorem insertScoped_apart_rumour :
    ∃ replies s f f', (empty ⟨0, 1⟩).performAll [.freshBlank, .add introduction] = (replies, s) ∧
      .node ⟨"t0n0"⟩ ∈ replies ∧ (s.insertScoped rumour).1 = 2 ∧
      (∃ set, IsAddedTo set rumour f (s.insertScoped rumour)) ∧
      (∃ set, IsAddedTo set rumour f' ((s.insertScoped rumour).2.insertScoped rumour)) ∧
      f ⟨"t0n0"⟩ ≠ ⟨"t0n0"⟩ ∧ f ⟨"t0n0"⟩ ≠ f' ⟨"t0n0"⟩ := by
  have hrun : (empty ⟨0, 1⟩).performAll [.freshBlank, .add introduction] = (_, _) := rfl
  have hreply : Reply.node ⟨"t0n0"⟩ ∈
      ((empty ⟨0, 1⟩).performAll [.freshBlank, .add introduction]).1 := List.mem_cons_self
  obtain ⟨set, f, hset, hadded, hbefore, hlater⟩ := insertScoped_apart hrun rumour
  obtain ⟨set', f', -, hadded', hapart⟩ := hlater [] _ rumour rfl
  have hnew : (rumour.toFinset.filter fun t => ¬t.IsGround).card = 2 := by decide
  have hold : rumour.toFinset.filter Triple.IsGround = {introduction} := by decide
  have hmem : introduction ∈ set := by
    have hcontains := (contains_add (isCoherent_perform (isCoherent_empty ⟨0, 1⟩) .freshBlank)).mpr
      (Or.inl (rfl : introduction = introduction))
    exact of_decide_eq_true ((hset.contains introduction).symm.trans hcontains)
  refine ⟨_, _, f, f', hrun, hreply, ?_, ⟨set, hadded⟩, ⟨set', hadded'⟩, ?_, ?_⟩
  · rw [hadded.counted, hnew, hold, Finset.sdiff_eq_empty_iff_subset.mpr
      (Finset.singleton_subset_iff.mpr hmem), Finset.card_empty]
  · exact hbefore _ hreply _ List.mem_cons_self _ (Or.inl rfl)
  · exact hapart _ List.mem_cons_self _ (Or.inl rfl) _ List.mem_cons_self _ (Or.inl rfl)

end Store

end RdfStore
