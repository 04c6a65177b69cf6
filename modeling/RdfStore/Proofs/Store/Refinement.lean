import Mathlib.Data.Finset.Card
import RdfStore.Proofs.Store.Batch
import RdfStore.Proofs.Store.Lookup

/-!
# A store is a set of triples

Every call keeps a store coherent, so every reachable store is.
On sets of triples the calls mean what one expects: adding inserts, a batch is inserted under
an injective renaming of its blank nodes to unused ones, clearing empties. A store goes
through runs of calls as some set does, with the same answers, and all that can be observed
of it is determined by that set. A lookup picks from its members.
-/

set_option autoImplicit false

namespace RdfStore.Store

/-! ## Runs of calls -/

/-- A call that changes a store. -/
inductive Call where
  | add (t : Triple)
  | extend (triples : List Triple)
  | insertScoped (batch : List Triple)
  | freshBlank
  | clear
  | readClock

/-- What a call answers. -/
inductive Reply where
  | isNew (answer : Bool)
  | added (n : Nat)
  | node (answer : BlankNode)
  | tick (n : Nat)
  | done
deriving DecidableEq

/-- Performs a call. -/
def perform (s : Store) : Call → Reply × Store
  | .add t => (.isNew (s.add t).1, (s.add t).2)
  | .extend triples => (.added (s.extend triples).1, (s.extend triples).2)
  | .insertScoped batch => (.added (s.insertScoped batch).1, (s.insertScoped batch).2)
  | .freshBlank => (.node s.freshBlank.1, s.freshBlank.2)
  | .clear => (.done, s.clear)
  | .readClock => (.tick s.now.1, s.now.2)

/-- Performs calls one after the other. -/
def performAll (s : Store) : List Call → List Reply × Store
  | [] => ([], s)
  | call :: rest =>
    let first := s.perform call
    let others := first.2.performAll rest
    (first.1 :: others.1, others.2)

/-- Calls on a store without triples, on some clock, lead to the store. -/
def IsReachable (s : Store) : Prop := ∃ clock calls, ((empty clock).performAll calls).2 = s

section Runs

variable {s : Store}

/-- Removing all triples keeps a store coherent. -/
theorem isCoherent_clear (s : Store) : s.clear.IsCoherent :=
  isCoherent_renamed (isCoherent_empty s.clock) s.clock s.blankCounter

/-- Adding a batch keeps a store coherent. -/
theorem isCoherent_insertScoped (hs : s.IsCoherent) (batch : List Triple) :
    (s.insertScoped batch).2.IsCoherent := by
  obtain ⟨names, -, hmidway, -⟩ := insertRenamed_spec (isMidway_start hs) batch
  exact hmidway.coherent

/-- Every call keeps a store coherent. -/
theorem isCoherent_perform (hs : s.IsCoherent) (call : Call) : (s.perform call).2.IsCoherent := by
  cases call with
  | add t => exact isCoherent_add hs t
  | extend triples => exact isCoherent_extend hs triples
  | insertScoped batch => exact isCoherent_insertScoped hs batch
  | freshBlank =>
    obtain ⟨clock, attempts, hstate, -⟩ := freshBlank_spec s
    show s.freshBlank.2.IsCoherent
    rw [hstate]
    exact isCoherent_renamed hs clock attempts
  | clear => exact isCoherent_clear s
  | readClock => exact isCoherent_renamed hs s.clock.advance s.blankCounter

/-- Calls keep a store coherent. -/
theorem isCoherent_performAll (hs : s.IsCoherent) (calls : List Call) :
    (s.performAll calls).2.IsCoherent := by
  induction calls generalizing s with
  | nil => exact hs
  | cons call rest ih => exact ih (isCoherent_perform hs call)

/-- Every reachable store is coherent. -/
theorem IsReachable.isCoherent (h : s.IsReachable) : s.IsCoherent := by
  obtain ⟨clock, calls, rfl⟩ := h
  exact isCoherent_performAll (isCoherent_empty clock) calls

end Runs

/-! ## Sets -/

/-- A renaming gives different unused names to the blank nodes of a batch. -/
structure IsScoped (set : Finset Triple) (batch : List Triple) (f : BlankNode → BlankNode) :
    Prop where
  injective : ∀ t ∈ batch, ∀ u ∈ batch, ∀ a b, t.Mentions a → u.Mentions b → f a = f b → a = b
  unused : ∀ t ∈ batch, ∀ a, t.Mentions a → ∀ u ∈ set, ¬u.Mentions (f a)

/-- What a call answers for a set of triples, and the set after it. -/
inductive SetStep (set : Finset Triple) : Call → Reply → Finset Triple → Prop where
  | add (t : Triple) : SetStep set (.add t) (.isNew (decide (t ∉ set))) (insert t set)
  | extend (triples : List Triple) :
      SetStep set (.extend triples) (.added (triples.toFinset \ set).card)
        (set ∪ triples.toFinset)
  | insertScoped (batch : List Triple) (f : BlankNode → BlankNode) (fresh : IsScoped set batch f) :
      SetStep set (.insertScoped batch)
        (.added ((batch.map (Triple.mapBlank f)).toFinset \ set).card)
        (set ∪ (batch.map (Triple.mapBlank f)).toFinset)
  | freshBlank (node : BlankNode) (unused : ∀ t ∈ set, ¬t.Mentions node) :
      SetStep set .freshBlank (.node node) set
  | clear : SetStep set .clear .done ∅
  | readClock (n : Nat) : SetStep set .readClock (.tick n) set

/-- What calls answer for a set of triples, and the set after them. -/
inductive SetRun : Finset Triple → List Call → List Reply → Finset Triple → Prop where
  | nil (set : Finset Triple) : SetRun set [] [] set
  | cons {set set' last : Finset Triple} {call : Call} {reply : Reply} {calls : List Call}
      {replies : List Reply} (first : SetStep set call reply set')
      (rest : SetRun set' calls replies last) :
      SetRun set (call :: calls) (reply :: replies) last

/-- All that can be observed of a store is what a set says: its members, how many there are,
and each member, and each term at a position, listed exactly once. -/
structure Represents (s : Store) (set : Finset Triple) : Prop where
  contains : ∀ t, s.contains t = decide (t ∈ set)
  count : s.count = set.card
  isEmpty : s.isEmpty = decide (set = ∅)
  toList : s.toList.Nodup ∧ ∀ t, t ∈ s.toList ↔ t ∈ set
  subjects : s.subjects.Nodup ∧ ∀ x, x ∈ s.subjects ↔ ∃ t ∈ set, t.subject = x
  predicates : s.predicates.Nodup ∧ ∀ x, x ∈ s.predicates ↔ ∃ t ∈ set, t.predicate = x
  objects : s.objects.Nodup ∧ ∀ x, x ∈ s.objects ↔ ∃ t ∈ set, t.object = x

/-- The members of a store are those of a set. -/
def HasMembers (s : Store) (set : Finset Triple) : Prop :=
  ∀ t, s.contains t = true ↔ t ∈ set

variable {s : Store} {set : Finset Triple}

/-- The count of a coherent store is the number of its members. -/
theorem HasMembers.count_eq (h : s.HasMembers set) (hs : s.IsCoherent) :
    s.count = set.card := by
  have hset : s.toList.toFinset = set := by
    ext t
    rw [List.mem_toFinset, mem_toList hs, h t]
  rw [count_eq_length hs, ← hset, List.toFinset_card_of_nodup (toList_nodup hs)]

/-- A coherent store represents the set of its members. -/
theorem HasMembers.represents (h : s.HasMembers set) (hs : s.IsCoherent) :
    s.Represents set := by
  have hposition : ∀ {α : Type} (position : Triple → α) (x : α),
      (∃ t, s.contains t = true ∧ position t = x) ↔ ∃ t ∈ set, position t = x :=
    fun position x => exists_congr fun t => and_congr_left fun _ => h t
  obtain ⟨hsubNodup, hsub⟩ := subjects_spec hs
  obtain ⟨hpredNodup, hpred⟩ := predicates_spec hs
  obtain ⟨hobjNodup, hobj⟩ := objects_spec hs
  refine ⟨fun t => ?_, h.count_eq hs, ?_, ⟨toList_nodup hs, fun t => ?_⟩,
    ⟨hsubNodup, fun x => (hsub x).trans (hposition _ x)⟩,
    ⟨hpredNodup, fun x => (hpred x).trans (hposition _ x)⟩,
    ⟨hobjNodup, fun x => (hobj x).trans (hposition _ x)⟩⟩
  · rw [Bool.eq_iff_iff, decide_eq_true_iff, h t]
  · rw [Bool.eq_iff_iff, decide_eq_true_iff, isEmpty_iff, h.count_eq hs, Finset.card_eq_zero]
  · rw [mem_toList hs, h t]

/-! ## Steps -/

/-- What a call that adds triples counts is how many of them were not members. -/
theorem added_eq_card {s' : Store} {added : Nat} {triples : Finset Triple} (hs : s.IsCoherent)
    (hs' : s'.IsCoherent) (h : s.HasMembers set) (h' : s'.HasMembers (set ∪ triples))
    (hcount : s'.count = s.count + added) : added = (triples \ set).card := by
  rw [h.count_eq hs, h'.count_eq hs', ← Finset.union_sdiff_self_eq_union,
    Finset.card_union_of_disjoint Finset.disjoint_sdiff] at hcount
  omega

/-- Adding a batch stores it under unused names, all given between its first and its last
attempt, and counts the triples that are new in this form. -/
theorem insertScoped_spec (hs : s.IsCoherent) (h : s.HasMembers set) (batch : List Triple) :
    ∃ f, IsScoped set batch f ∧
      (s.insertScoped batch).2.HasMembers (set ∪ (batch.map (Triple.mapBlank f)).toFinset) ∧
      (s.insertScoped batch).1 = ((batch.map (Triple.mapBlank f)).toFinset \ set).card ∧
      ∀ t ∈ batch, ∀ a, t.Mentions a →
        IsNamedWithin s.blankCounter (s.insertScoped batch).2.blankCounter (f a) := by
  obtain ⟨names, -, hmidway, hcovers, hmem, hcount⟩ :=
    insertRenamed_spec (isMidway_start hs) batch
  have hmembers : (s.insertScoped batch).2.HasMembers
      (set ∪ (batch.map (Triple.mapBlank names.apply)).toFinset) := by
    intro u
    rw [Finset.mem_union, List.mem_toFinset, or_comm, ← h u]
    exact hmem u
  refine ⟨names.apply, ⟨?_, ?_⟩, hmembers,
    added_eq_card hs hmidway.coherent h hmembers hcount, ?_⟩
  · intro t ht u hu a b ha hb hab
    obtain ⟨new, hnew⟩ := hcovers t ht a ha
    obtain ⟨new', hnew'⟩ := hcovers u hu b hb
    rw [Renaming.apply_of_lookup hnew, Renaming.apply_of_lookup hnew'] at hab
    rw [← hab] at hnew'
    exact hmidway.injective a b new hnew hnew'
  · intro t ht a ha u hu
    obtain ⟨new, hnew⟩ := hcovers t ht a ha
    rw [Renaming.apply_of_lookup hnew]
    exact hmidway.unused a new hnew u ((h u).mpr hu)
  · intro t ht a ha
    obtain ⟨new, hnew⟩ := hcovers t ht a ha
    rw [Renaming.apply_of_lookup hnew]
    exact hmidway.named a new hnew

/-- Adding a batch inserts it under fresh names for its blank nodes. -/
theorem insertScoped_step (hs : s.IsCoherent) (h : s.HasMembers set) (batch : List Triple) :
    ∃ set', SetStep set (.insertScoped batch) (.added (s.insertScoped batch).1) set' ∧
      (s.insertScoped batch).2.HasMembers set' := by
  obtain ⟨f, hscoped, hmembers, hadded, -⟩ := insertScoped_spec hs h batch
  refine ⟨_, ?_, hmembers⟩
  have hstep := SetStep.insertScoped batch f hscoped
  rw [← hadded] at hstep
  exact hstep

/-- Every call does to the members of a store what it does to a set, with the same answer. -/
theorem perform_step (hs : s.IsCoherent) (h : s.HasMembers set) (call : Call) :
    ∃ set', SetStep set call (s.perform call).1 set' ∧ (s.perform call).2.HasMembers set' := by
  cases call with
  | add t =>
    refine ⟨insert t set, ?_, ?_⟩
    · have hanswer : (s.add t).1 = decide (t ∉ set) := by
        rw [add_fst hs, Bool.eq_iff_iff, Bool.not_eq_true', Bool.eq_false_iff, ne_eq, h t,
          decide_eq_true_iff]
      show SetStep set (.add t) (.isNew (s.add t).1) _
      rw [hanswer]
      exact .add t
    · intro u
      rw [Finset.mem_insert, ← h u]
      exact contains_add hs
  | extend triples =>
    have hmembers : (s.extend triples).2.HasMembers (set ∪ triples.toFinset) := by
      intro u
      rw [contains_extend hs, Finset.mem_union, List.mem_toFinset, h u, or_comm]
    have hadded := added_eq_card hs (isCoherent_extend hs triples) h hmembers
      (count_extend s triples)
    refine ⟨_, ?_, hmembers⟩
    show SetStep set (.extend triples) (.added (s.extend triples).1) _
    rw [hadded]
    exact .extend triples
  | insertScoped batch => exact insertScoped_step hs h batch
  | freshBlank =>
    obtain ⟨clock, attempts, hstate, -⟩ := freshBlank_spec s
    refine ⟨set, .freshBlank _ fun t ht => not_mentions_freshBlank hs ((h t).mpr ht), ?_⟩
    · show s.freshBlank.2.HasMembers set
      rw [hstate]
      exact h
  | clear =>
    refine ⟨∅, .clear, fun t => ?_⟩
    rw [iff_false_right (Finset.notMem_empty t), Bool.not_eq_true]
    exact contains_empty s.clock t
  | readClock => exact ⟨set, .readClock _, h⟩

/-- Calls do to the members of a store what they do to a set, with the same answers. -/
theorem performAll_run (hs : s.IsCoherent) (h : s.HasMembers set) (calls : List Call) :
    ∃ last, SetRun set calls (s.performAll calls).1 last ∧
      (s.performAll calls).2.HasMembers last := by
  induction calls generalizing s set with
  | nil => exact ⟨set, .nil set, h⟩
  | cons call rest ih =>
    obtain ⟨set', hstep, hmembers⟩ := perform_step hs h call
    obtain ⟨last, hrun, hlast⟩ := ih (isCoherent_perform hs call) hmembers
    exact ⟨last, .cons hstep hrun, hlast⟩

/-- From the empty store, on any clock, calls do and answer what they do and answer on the
empty set of triples, and what can be observed of the store afterwards is the set afterwards. -/
theorem performAll_refines (clock : Clock) (calls : List Call) :
    ∃ set, SetRun ∅ calls ((empty clock).performAll calls).1 set ∧
      ((empty clock).performAll calls).2.Represents set := by
  have hs := isCoherent_empty clock
  have h : (empty clock).HasMembers ∅ := by
    intro t
    rw [contains_empty, iff_false_right (Finset.notMem_empty t)]
    exact Bool.false_ne_true
  obtain ⟨set, hrun, hmembers⟩ := performAll_run hs h calls
  exact ⟨set, hrun, hmembers.represents (isCoherent_performAll hs calls)⟩

/-! ## Lookups -/

/-- A list is the answer of an exact lookup: the stored triples that agree with every given
term, each once, in ascending order of their keys in the index that the given positions
select. -/
structure IsExact (s : Store) (subject predicate object : Option Term)
    (found : List TermTriple) : Prop where
  mem : ∀ m, m ∈ found ↔
    m.Agrees subject predicate object ∧ ∃ t, s.contains t = true ∧ m = .ofTriple t
  nodup : found.Nodup
  ascending : ∃ keys : List Key, keys.Pairwise (fun a b => Key.order a b = .lt) ∧
    (∀ k ∈ keys, k ∈ s.index (selectedOrder subject predicate object)) ∧
    keys.map (fun k => s.termsOf? ((selectedOrder subject predicate object).triple k)) =
      found.map some

/-- In a reachable store lookups by any terms are exact, and a typed lookup is the lookup by
its terms: it loses no triple and is all triples picked by the query, up to their order. -/
theorem isExact_matching (h : s.IsReachable) :
    (∀ subject predicate object : Option Term,
      s.IsExact subject predicate object (s.matching subject predicate object)) ∧
    ∀ q : TripleQuery,
      (s.find q).map TermTriple.ofTriple =
        s.matching (q.subject.map Subject.toTerm) (q.predicate.map Term.iri) q.object ∧
      (s.find q).Perm (s.toList.filter q.agrees) := by
  have hs := h.isCoherent
  refine ⟨fun subject predicate object => ?_, fun q => ?_⟩
  · refine ⟨fun m => mem_matching hs, matching_nodup hs subject predicate object, ?_⟩
    exact ⟨s.selectedKeys subject predicate object,
      selectedKeys_ascending hs subject predicate object,
      fun k hk => ((mem_selectedKeys hs).mp hk).1,
      map_termsOf?_selectedKeys hs subject predicate object⟩
  · exact ⟨map_ofTriple_find hs q, find_perm_filter hs q⟩

/-- A store that was filled, cleared and filled again. -/
def refilled : Store :=
  let triple (a b : String) : Triple :=
    ⟨.iri ⟨"http://example.org/" ++ a⟩, ⟨"http://example.org/knows"⟩,
      .iri ⟨"http://example.org/" ++ b⟩⟩
  ((empty ⟨0, 1⟩).performAll
    [.add (triple "ann" "bob"), .clear, .extend [triple "bob" "cy", triple "cy" "ann"]]).2

/-- The refilled store is reachable, so a lookup by a literal as the subject, which no triple
can have, and a known object is exact. -/
theorem isExact_matching_refilled :
    refilled.IsReachable ∧
      refilled.IsExact (some (.literal ⟨"bob", .plain⟩)) none
        (some (.iri ⟨"http://example.org/ann"⟩))
        (refilled.matching (some (.literal ⟨"bob", .plain⟩)) none
          (some (.iri ⟨"http://example.org/ann"⟩))) := by
  have h : refilled.IsReachable := ⟨_, _, rfl⟩
  exact ⟨h, (isExact_matching h).1 _ _ _⟩

end RdfStore.Store
