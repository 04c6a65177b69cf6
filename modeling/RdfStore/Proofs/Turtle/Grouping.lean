import Mathlib.Data.List.SplitBy
import RdfStore.Proofs.Term.Order
import RdfStore.Proofs.Text.Joined
import RdfStore.Proofs.Turtle.Passages

/-!
# Groups of triples are passages

The writer of Turtle splits the sorted triples where the subject changes, and the triples of a
subject where the predicate changes. Every group is a passage: it is written as the block of
the passage, and the triples of all passages are the sorted triples, in their order. The first
triple of a passage comes first among all triples about its subject, since sorting brings these
together.
-/

set_option autoImplicit false

namespace RdfStore.Turtle

open RdfStore.Text

/-- The clause of triples with a common subject and predicate. -/
def clauseOf? : List Triple → Option Clause
  | [] => none
  | t :: rest => some ⟨t.predicate, t.object, rest.map Triple.object⟩

/-- The triples of a subject, split where the predicate changes. -/
def byPredicate (ts : List Triple) : List (List Triple) :=
  ts.splitBy fun a b => a.predicate == b.predicate

/-- The passage of triples with a common subject. -/
def passageOf? (ts : List Triple) : Option Passage :=
  match ts, (byPredicate ts).filterMap clauseOf? with
  | t :: _, clause :: others => some ⟨t.subject, clause, others⟩
  | _, _ => none

/-- The triples, split where the subject changes. -/
def bySubject (ts : List Triple) : List (List Triple) :=
  ts.splitBy fun a b => a.subject == b.subject

/-- The passages of sorted triples. -/
def passagesOf (ts : List Triple) : List Passage := (bySubject ts).filterMap passageOf?

/-! ## The triples of passages -/

/-- Where neighbours agree, all agree with the first. -/
theorem eq_head_of_isChain {α β : Type} [BEq β] [LawfulBEq β] (f : α → β) {a : α} {rest : List α}
    (h : (a :: rest).IsChain fun x y => f x == f y) : ∀ x ∈ a :: rest, f x = f a := by
  induction rest generalizing a with
  | nil =>
    intro x hx
    rw [List.mem_singleton] at hx
    rw [hx]
  | cons b rest ih =>
    obtain ⟨hab, hrest⟩ := List.isChain_cons_cons.mp h
    intro x hx
    rcases List.mem_cons.mp hx with rfl | hx
    · rfl
    · rw [ih hrest x hx, eq_of_beq hab]

/-- The triples of a group with a common predicate are those of its clause. -/
theorem triples_clauseOf {ts : List Triple} {c : Clause} {subject : Subject}
    (h : clauseOf? ts = some c) (hsubject : ∀ t ∈ ts, t.subject = subject)
    (hpredicate : ts.IsChain fun a b => a.predicate == b.predicate) : c.triples subject = ts := by
  cases ts with
  | nil => cases h
  | cons t rest =>
    cases h
    have hsame := eq_head_of_isChain Triple.predicate hpredicate
    have hform : ∀ u ∈ t :: rest, (⟨subject, t.predicate, u.object⟩ : Triple) = u := by
      intro u hu
      rw [← hsubject u hu, ← hsame u hu]
    show (t.object :: rest.map Triple.object).map
      (fun o => (⟨subject, t.predicate, o⟩ : Triple)) = _
    rw [← List.map_cons, List.map_map]
    exact (List.map_congr_left hform).trans (List.map_id _)

/-- The clauses of groups with a common subject have the triples of the groups. -/
theorem flatMap_clauses {groups : List (List Triple)} {subject : Subject}
    (hsubject : ∀ g ∈ groups, ∀ t ∈ g, t.subject = subject)
    (hpredicate : ∀ g ∈ groups, g.IsChain fun a b => a.predicate == b.predicate) :
    (groups.filterMap clauseOf?).flatMap (fun c => c.triples subject) = groups.flatten := by
  induction groups with
  | nil => rfl
  | cons g groups ih =>
    have hrest := ih (fun g hg => hsubject g (List.mem_cons_of_mem _ hg))
      fun g hg => hpredicate g (List.mem_cons_of_mem _ hg)
    cases hclause : clauseOf? g with
    | none =>
      cases g with
      | nil =>
        rw [List.filterMap_cons_none hclause, hrest]
        rfl
      | cons t rest => cases hclause
    | some c =>
      rw [List.filterMap_cons_some hclause, List.flatMap_cons, hrest, List.flatten_cons,
        triples_clauseOf hclause (hsubject g List.mem_cons_self)
          (hpredicate g List.mem_cons_self)]

/-- A group with a common subject is a passage with its triples. -/
theorem passageOf_eq_some {t : Triple} {rest : List Triple}
    (h : (t :: rest).IsChain fun a b => a.subject == b.subject) :
    ∃ p, passageOf? (t :: rest) = some p ∧ p.triples = t :: rest := by
  have hsubject := eq_head_of_isChain Triple.subject h
  have hclauses : ((byPredicate (t :: rest)).filterMap clauseOf?).flatMap
      (fun c => c.triples t.subject) = t :: rest := by
    rw [flatMap_clauses]
    · exact List.flatten_splitBy _ _
    · intro g hg u hu
      refine hsubject u ?_
      rw [← List.flatten_splitBy (fun a b => a.predicate == b.predicate) (t :: rest)]
      exact List.mem_flatten.mpr ⟨g, hg, hu⟩
    · exact fun g hg => List.isChain_of_mem_splitBy hg
  unfold passageOf?
  cases hsome : (byPredicate (t :: rest)).filterMap clauseOf? with
  | nil =>
    rw [hsome] at hclauses
    cases hclauses
  | cons c others =>
    rw [hsome] at hclauses
    exact ⟨_, rfl, hclauses⟩

/-- The triples of the passages are the sorted triples. -/
theorem flatMap_passagesOf (ts : List Triple) : (passagesOf ts).flatMap Passage.triples = ts := by
  have hall : ∀ groups : List (List Triple),
      (∀ g ∈ groups, g.IsChain fun a b => a.subject == b.subject) →
      (groups.filterMap passageOf?).flatMap Passage.triples = groups.flatten := by
    intro groups hgroups
    induction groups with
    | nil => rfl
    | cons g groups ih =>
      have hrest := ih fun g hg => hgroups g (List.mem_cons_of_mem _ hg)
      cases g with
      | nil => exact hrest
      | cons t rest =>
        obtain ⟨p, hp, htriples⟩ := passageOf_eq_some (hgroups _ List.mem_cons_self)
        rw [List.filterMap_cons_some hp, List.flatMap_cons, hrest, htriples, List.flatten_cons]
  have hgroups := hall (bySubject ts) fun g hg => List.isChain_of_mem_splitBy hg
  rw [passagesOf, hgroups]
  exact List.flatten_splitBy _ ts

/-! ## The first triples of passages -/

/-- A triple that comes first among those about its subject. -/
def IsFirstOfSubject (ts : List Triple) (t : Triple) : Prop :=
  t ∈ ts ∧ ∀ u ∈ ts, u.subject = t.subject → (Triple.order t u).isLE

/-- Where sorted triples are split at every new subject, the first triple of a group comes first
among all triples about its subject. -/
theorem isLE_head_of_groups {groups : List (List Triple)}
    (hsorted : groups.flatten.Pairwise fun a b => Triple.order a b = .lt)
    (hsubject : ∀ g ∈ groups, g.IsChain fun a b => a.subject == b.subject)
    (hbreak : groups.IsChain fun g h =>
      ∃ hg hh, ((g.getLast hg).subject == (h.head hh).subject) = false)
    {t : Triple} {rest : List Triple} (hgroup : t :: rest ∈ groups) {u : Triple}
    (hu : u ∈ groups.flatten) (hsame : u.subject = t.subject) : (Triple.order t u).isLE := by
  induction groups with
  | nil => cases hgroup
  | cons g groups ih =>
    rw [List.flatten_cons] at hsorted hu
    obtain ⟨hfirst, hothers, hacross⟩ := List.pairwise_append.mp hsorted
    rcases List.mem_cons.mp hgroup with rfl | hlater
    · rcases List.mem_append.mp hu with hin | hlate
      · exact Triple.isLE_of_pairwise hfirst hin
      · exact Ordering.isLE_of_eq_lt (hacross t List.mem_cons_self u hlate)
    · rcases List.mem_append.mp hu with hearly | hlate
      · -- the first triple of the next group stands between the two, but has another subject
        cases groups with
        | nil => cases hlater
        | cons h groups =>
          obtain ⟨⟨hg, hh, hne⟩, -⟩ := List.isChain_cons_cons.mp hbreak
          obtain ⟨v, vs, rfl⟩ := List.exists_cons_of_ne_nil hh
          obtain ⟨w, ws, rfl⟩ := List.exists_cons_of_ne_nil hg
          have hin : t ∈ ((v :: vs) :: groups).flatten :=
            List.mem_flatten.mpr ⟨_, hlater, List.mem_cons_self⟩
          have hcommon := eq_head_of_isChain Triple.subject (hsubject _ List.mem_cons_self)
          have hbetween : v.subject = u.subject := Triple.subject_eq_of_between
            (Ordering.isLE_of_eq_lt (hacross u hearly v List.mem_cons_self))
            (Triple.isLE_of_pairwise hothers hin) hsame.symm
          rw [List.head_cons, hbetween, hcommon u hearly, hcommon _ (List.getLast_mem hg)] at hne
          exact absurd hne (by rw [beq_self_eq_true]; exact Bool.noConfusion)
      · exact ih hothers (fun g hg => hsubject g (List.mem_cons_of_mem _ hg))
          (List.IsChain.tail hbreak) hlater hlate

/-- The first triple of a passage comes first among all triples about its subject. -/
theorem isFirstOfSubject_first {ts : List Triple} {p : Passage}
    (hp : p ∈ passagesOf (sortedDistinct ts)) : IsFirstOfSubject ts p.first := by
  obtain ⟨g, hg, hpassage⟩ := List.mem_filterMap.mp hp
  have hflatten : (bySubject (sortedDistinct ts)).flatten = sortedDistinct ts :=
    List.flatten_splitBy _ _
  cases g with
  | nil => cases hpassage
  | cons t rest =>
    obtain ⟨q, hq, htriples⟩ := passageOf_eq_some (List.isChain_of_mem_splitBy hg)
    obtain rfl : q = p := Option.some.inj (hq.symm.trans hpassage)
    obtain rfl : q.first = t := (List.cons.inj htriples).1
    refine ⟨?_, fun u hu hsame => ?_⟩
    · rw [← mem_sortedDistinct, ← hflatten]
      exact List.mem_flatten.mpr ⟨_, hg, List.mem_cons_self⟩
    · rw [← mem_sortedDistinct, ← hflatten] at hu
      have hsorted := pairwise_sortedDistinct ts
      rw [← hflatten] at hsorted
      have hbreak := List.isChain_getLast_head_splitBy
        (fun a b : Triple => a.subject == b.subject) (sortedDistinct ts)
      exact isLE_head_of_groups hsorted (fun g hg => List.isChain_of_mem_splitBy hg) hbreak hg hu
        hsame

/-- Every triple that comes first among those about its subject is the first of a passage. -/
theorem exists_passage_of_isFirstOfSubject {ts : List Triple} {t : Triple}
    (h : IsFirstOfSubject ts t) : ∃ p ∈ passagesOf (sortedDistinct ts), p.first = t := by
  obtain ⟨hmem, hleast⟩ := h
  rw [← mem_sortedDistinct, ← flatMap_passagesOf (sortedDistinct ts)] at hmem
  obtain ⟨p, hp, ht⟩ := List.mem_flatMap.mp hmem
  obtain ⟨hfirst, hfirstLeast⟩ := isFirstOfSubject_first hp
  have hsubject : t.subject = p.first.subject := by
    obtain ⟨c, -, hc⟩ := List.mem_flatMap.mp ht
    obtain ⟨o, -, rfl⟩ := List.mem_map.mp hc
    rfl
  have htmem : t ∈ ts := by
    rw [← mem_sortedDistinct, ← flatMap_passagesOf (sortedDistinct ts)]
    exact hmem
  exact ⟨p, hp, Triple.eq_of_isLE (hfirstLeast t htmem hsubject)
    (hleast p.first hfirst hsubject.symm)⟩

/-! ## The text of passages -/

/-- A clause is written as a predicate with its objects. -/
theorem text_clauseOf {ns : Namespaces} {ts : List Triple} {c : Clause}
    (h : clauseOf? ts = some c) : (c.property ns true).text = (writeObjects ns ts).toList := by
  cases ts with
  | nil => cases h
  | cons t rest =>
    cases h
    rw [writeObjects, List.map_cons, String.toList_append, toList_intercalate_cons]
    simp [Clause.property, Property.text, verbPart_text, termPart_text, List.flatMap_map]

/-- The texts of groups that are not empty are those of their clauses. -/
theorem texts_clauses (ns : Namespaces) {groups : List (List Triple)} (h : [] ∉ groups) :
    (groups.map (writeObjects ns)).map String.toList =
      (groups.filterMap clauseOf?).map fun c => (c.property ns true).text := by
  induction groups with
  | nil => rfl
  | cons g groups ih =>
    rw [List.mem_cons, not_or] at h
    cases g with
    | nil => exact absurd rfl h.1
    | cons t rest =>
      have hclause : clauseOf? (t :: rest) = some ⟨t.predicate, t.object, rest.map Triple.object⟩ :=
        rfl
      rw [List.filterMap_cons_some hclause, List.map_cons, List.map_cons, List.map_cons, ih h.2,
        text_clauseOf hclause]

/-- A passage is written as the statement about its subject. -/
theorem text_passageOf {ns : Namespaces} {ts : List Triple} {p : Passage}
    (h : passageOf? ts = some p) :
    (p.block ns true).statement.text = (writeSubject ns ts).toList := by
  unfold passageOf? at h
  split at h
  · rename_i t rest c others hclauses
    cases h
    have hnonempty : [] ∉ byPredicate (t :: rest) := List.nil_notMem_splitBy _ _
    have htexts := texts_clauses ns hnonempty
    rw [hclauses, List.map_cons] at htexts
    obtain ⟨text, texts, hgroups, htext, hmore⟩ := List.map_eq_cons_iff.mp htexts
    have hsubject : (writeSubject ns (t :: rest)).toList =
        (writeTerm ns t.subject.toTerm).toList ++ ' ' ::
          ((String.intercalate " ;\n    " (text :: texts)).toList ++ " .\n".toList) := by
      rw [writeSubject, ← hgroups]
      simp [byPredicate]
    have hlater : (texts.flatMap fun t => " ;\n    ".toList ++ t.toList) =
        others.flatMap fun c => " ;\n    ".toList ++ (c.property ns true).text := by
      have hsame := congrArg (List.flatMap fun cs => " ;\n    ".toList ++ cs) hmore
      rwa [List.flatMap_map, List.flatMap_map] at hsame
    rw [hsubject, toList_intercalate_cons, htext, hlater, Passage.block, Block.statement,
      Block.text]
    simp [termPart_text, List.flatMap_map]
  · cases h

/-- Passages are written as the statements about their subjects. -/
theorem flatMap_text_passagesOf (ns : Namespaces) (ts : List Triple) :
    ((passagesOf ts).flatMap fun p => (p.block ns true).statement.text) =
      (String.join ((bySubject ts).map (writeSubject ns))).toList := by
  have hall : ∀ groups : List (List Triple), [] ∉ groups →
      (∀ g ∈ groups, g.IsChain fun a b => a.subject == b.subject) →
      ((groups.filterMap passageOf?).flatMap fun p => (p.block ns true).statement.text) =
        groups.flatMap fun g => (writeSubject ns g).toList := by
    intro groups hnonempty hgroups
    induction groups with
    | nil => rfl
    | cons g groups ih =>
      rw [List.mem_cons, not_or] at hnonempty
      have hrest := ih hnonempty.2 fun g hg => hgroups g (List.mem_cons_of_mem _ hg)
      cases g with
      | nil => exact absurd rfl hnonempty.1
      | cons t rest =>
        obtain ⟨p, hp, -⟩ := passageOf_eq_some (hgroups _ List.mem_cons_self)
        rw [List.filterMap_cons_some hp, List.flatMap_cons, List.flatMap_cons, hrest,
          text_passageOf hp]
  have hgroups := hall (bySubject ts) (List.nil_notMem_splitBy _ _)
    fun g hg => List.isChain_of_mem_splitBy hg
  rw [passagesOf, hgroups, String.toList_join, List.flatMap_map]

/-! ## The text of a document -/

/-- The entries of the prefixes that the text of some triples uses. -/
def usedEntries (ns : Namespaces) (ts : List Triple) : List (String × String) :=
  ns.entries.filter fun entry => (usedPrefixes ns ts).contains entry.1

/-- The line break that separates declarations from statements. -/
def separation (ns : Namespaces) (ts : List Triple) : List Char :=
  if (usedPrefixes ns ts).isEmpty then [] else ['\n']

/-- The separation consists of blanks. -/
theorem wordsOf_separation (ns : Namespaces) (ts : List Triple) (cs : List Char) :
    wordsOf (separation ns ts ++ cs) = wordsOf cs := by
  unfold separation
  split
  · rfl
  · exact wordsOf_blank rfl cs

/-- The declarations of prefixes, as characters. -/
theorem toList_writeDeclarations (ns : Namespaces) (ts : List Triple) :
    (writeDeclarations ns (usedPrefixes ns ts)).toList =
      (usedEntries ns ts).flatMap fun e => (declaration e.1.toList e.2.toList).text := by
  rw [writeDeclarations, String.toList_join, List.flatMap_map]
  refine List.flatMap_congr fun e _ => ?_
  have htext := declaration_append e.1.toList e.2.toList []
  rw [List.append_nil] at htext
  rw [htext]
  simp

/-- What is written for some triples is the document of their passages. -/
theorem write_eq (ns : Namespaces) (ts : List Triple) :
    write ts ns = String.ofList (documentText ns true (usedEntries ns (sortedDistinct ts))
      (separation ns (sortedDistinct ts)) (passagesOf (sortedDistinct ts))) := by
  have hgap : ∀ used : List String, (if used.isEmpty then "" else "\n").toList =
      if used.isEmpty then [] else ['\n'] := fun used => by split <;> rfl
  rw [← String.toList_inj, String.toList_ofList, documentText, flatMap_text_passagesOf,
    ← toList_writeDeclarations, separation, ← hgap, write, String.toList_append,
    String.toList_append, List.append_assoc]
  rfl

end RdfStore.Turtle
