import RdfStore.Proofs.Eval.Shaping
import RdfStore.Proofs.Eval.SolutionTerms
import RdfStore.Proofs.Eval.TemplateGraph
import RdfStore.Proofs.Store.Numbering
import RdfStore.Proofs.Term.Reading

/-!
# Answers have well-formed terms

Sorting, projecting and cutting solutions gives rows with their terms, and a template makes
triples of them and of numbered nodes. So the answer of a query that was read has well-formed
terms only; and its columns have plain names, because hidden variables are no columns.
-/

set_option autoImplicit false

namespace RdfStore.Eval

open Query

/-! ## Names -/

section Names

variable {v : String}

mutual

/-- The variables that a group can bind have proper names. -/
theorem isProper_of_mem_addVars {names : List String} (g : Group)
    (h : (Part.group g).MeetsDeeply ingredients)
    (hv : v ∈ g.addVars names) : v ∈ names ∨ (Place.var v).IsProper := by
  match g with
  | .mk elements => exact isProper_of_mem_addElementVars elements (areProper_elements h) hv

/-- A variable that elements add to others occurs in a proper place. -/
theorem isProper_of_mem_addElementVars {names : List String} (elements : List Element)
    (h : AreProper elements) (hv : v ∈ addElementVars names elements) :
    v ∈ names ∨ (Place.var v).IsProper := by
  match elements with
  | [] => exact Or.inl hv
  | element :: rest =>
    have hrest : AreProper rest := fun e he => h e (List.mem_cons_of_mem _ he)
    rcases isProper_of_mem_addElementVars rest hrest hv with hv | hv
    · exact isProper_of_mem_addVarsOf element (h element List.mem_cons_self) hv
    · exact Or.inr hv

/-- A variable that an element adds to others occurs in a proper place. -/
theorem isProper_of_mem_addVarsOf {names : List String} (element : Element)
    (h : element.IsProper ∧ ∀ p ∈ element.parts, p.MeetsDeeply ingredients)
    (hv : v ∈ element.addVars names) : v ∈ names ∨ (Place.var v).IsProper := by
  match element with
  | .triples patterns =>
    refine (mem_insertNames.mp hv).imp_right fun hv => ?_
    obtain ⟨p, hp, hv⟩ := List.mem_flatMap.mp hv
    obtain ⟨place, hplace, hvar⟩ := List.mem_filterMap.mp hv
    cases place <;> cases hvar
    exact h.1 p hp _ hplace
  | .filter _ | .minus _ => exact Or.inl hv
  | .optional g | .group g => exact isProper_of_mem_addVars g (h.2 _ List.mem_cons_self) hv
  | .union branches =>
    exact isProper_of_mem_addBranchVars branches (fun g hg => h.2 _ (List.mem_map_of_mem hg)) hv
  | .bind _ name =>
    refine (mem_insertName.mp hv).imp_right ?_
    rintro rfl
    exact Or.inr h.1
  | .data block => exact (mem_insertNames.mp hv).imp_right fun hv => Or.inr (h.1.vars v hv)

/-- A variable that the branches of a union add to others occurs in a proper place. -/
theorem isProper_of_mem_addBranchVars {names : List String} (branches : List Group)
    (h : ∀ g ∈ branches, (Part.group g).MeetsDeeply ingredients)
    (hv : v ∈ addBranchVars names branches) : v ∈ names ∨ (Place.var v).IsProper := by
  match branches with
  | [] => exact Or.inl hv
  | g :: rest =>
    have hrest := fun other hother => h other (List.mem_cons_of_mem _ hother)
    rcases isProper_of_mem_addBranchVars rest hrest hv with hv | hv
    · exact isProper_of_mem_addVars g (h g List.mem_cons_self) hv
    · exact Or.inr hv

end

end Names

/-! ## Answers -/

/-- A table with plain names whose rows give each name one value, and well-formed terms. -/
structure IsTable (columns : List String) (rows : List (List (Option Term))) : Prop where
  names : ∀ name ∈ columns, IsPlainName name
  rows : ∀ row ∈ rows, ∃ value : String → Option Term,
    row = columns.map value ∧ ∀ name t, value name = some t → t.IsWellFormed

/-- Every value in a table of inline data is well formed. -/
theorem IsTable.isWellFormed {columns : List String} {rows : List (List (Option Term))}
    (h : IsTable columns rows) {row : List (Option Term)} (hrow : row ∈ rows) {t : Term}
    (ht : some t ∈ row) : t.IsWellFormed := by
  obtain ⟨value, rfl, hvalue⟩ := h.rows row hrow
  obtain ⟨name, -, hname⟩ := List.mem_map.mp ht
  exact hvalue name t hname

/-- An answer whose terms are well-formed. -/
def Answer.HoldsTerms : Answer → Prop
  | .solutions columns rows => IsTable columns rows
  | .boolean _ => True
  | .graph triples => ∀ t ∈ triples, t.IsWellFormed

section Answers

variable {q : Query} {env : Env}

/-- All columns have plain names: hidden variables are no columns. -/
theorem isPlainName_of_mem_columns (h : Meets ingredients q) :
    ∀ name ∈ columns q, IsPlainName name := by
  have hall : ∀ name ∈ (insertNames q.pattern.vars (q.data.elim [] DataBlock.vars)).filter
      fun name => !isHidden name, IsPlainName name := by
    intro name hname
    obtain ⟨hmem, hshown⟩ := List.mem_filter.mp hname
    rcases mem_insertNames.mp hmem with hmem | hmem
    · have hpattern := h.roots _ List.mem_cons_self
      have hproper := (isProper_of_mem_addVars q.pattern hpattern hmem).resolve_left
        List.not_mem_nil
      exact hproper.resolve_left fun hhidden => by simp [hhidden] at hshown
    · cases hdata : q.data with
      | none =>
        rw [hdata] at hmem
        exact absurd hmem List.not_mem_nil
      | some block =>
        rw [hdata] at hmem
        exact (h.data block hdata).vars name hmem
  intro name hname
  unfold columns at hname
  split at hname
  · rename_i duplicates items hform
    obtain ⟨item, hitem, rfl⟩ := List.mem_map.mp hname
    obtain ⟨before, after, hsplit⟩ := List.append_of_mem hitem
    refine h.form.columns before item after ?_
    rw [hform]
    exact hsplit
  · exact hall name hname

/-- The rows that a query starts from bind well-formed terms only. -/
theorem areWellFormed_querySolutions (hs : env.store.HoldsTerms) (h : Meets ingredients q) :
    AreWellFormed (querySolutions env q) := by
  have hrows := areWellFormed_groupSolutions hs q.pattern (h.roots _ List.mem_cons_self)
    (Solution.isWellFormed_unbound env.names.length)
  unfold querySolutions
  dsimp only
  split
  · rename_i block hdata
    have htable := areWellFormed_dataSolutions env.names (h.data block hdata)
    exact areWellFormed_flatMap hrows fun _ hrow => areWellFormed_joinTable htable hrow
  · exact hrows

/-- Computing columns keeps the terms of all rows well formed. -/
theorem areWellFormed_itemSolutions (hs : env.store.HoldsTerms) {items : List SelectItem}
    (h : ∀ e ∈ items.filterMap SelectItem.value?, (Part.expr e).MeetsDeeply ingredients)
    {rows : List Solution} (hrows : AreWellFormed rows) :
    AreWellFormed (itemSolutions env items rows) := by
  induction items generalizing rows with
  | nil => exact hrows
  | cons item rest ih =>
    cases item with
    | var name => exact ih h hrows
    | expr value name =>
      have hvalue := isWellFormed_valueOf hs value (h value List.mem_cons_self)
      refine ih (fun e he => h e (List.mem_cons_of_mem _ he)) ?_
      exact areWellFormed_map hrows fun _ hrow => isWellFormed_assignName hvalue hrow

/-- A slice of sorted rows has rows from the list. -/
theorem mem_of_mem_slicedList {α : Type} {m : Modifiers} {rows : List α} {row : α}
    (h : row ∈ slicedList m rows) : row ∈ rows := by
  unfold slicedList at h
  dsimp only at h
  split at h
  · exact List.mem_of_mem_drop (List.mem_of_mem_take h)
  · exact List.mem_of_mem_drop h

/-- Sorting, projecting and slicing bring in no new terms. -/
theorem areWellFormed_tableSolutions (env : Env) (m : Modifiers) (duplicates : Duplicates)
    (slots : List Nat) {rows : List Solution} (hrows : AreWellFormed rows) :
    AreWellFormed (tableSolutions env m duplicates slots rows) := by
  have hsorted : AreWellFormed (sortedSolutions env m rows) := fun row hrow =>
    hrows row ((sortedSolutions_perm env m rows).mem_iff.mp hrow)
  have hprojected := areWellFormed_map hsorted fun _ hrow => hrow.project slots
  intro row hrow
  have hmem := mem_of_mem_slicedList hrow
  split at hmem
  · exact hprojected row hmem
  · exact hprojected row (List.mem_eraseDups.mp hmem)

/-- A triple of well-formed terms is well-formed. -/
theorem isWellFormed_of_ofTerms? {subject predicate object : Term} {t : Triple}
    (hsubject : subject.IsWellFormed) (hpredicate : predicate.IsWellFormed)
    (hobject : object.IsWellFormed) (h : Triple.ofTerms? subject predicate object = some t) :
    t.IsWellFormed := by
  unfold Triple.ofTerms? at h
  split at h
  · rename_i s p hs hp
    cases h
    refine ⟨?_, ?_, hobject⟩
    · cases subject <;> cases hs <;> exact hsubject
    · cases predicate <;> cases hp
      exact hpredicate
  · cases h

/-- The nodes for the labels of a template have well-formed names. -/
theorem isWellFormed_numbered (n : Nat) : (numbered n).IsWellFormed :=
  BlankNode.isWellFormed_numbered rfl (by decide) n

/-- A triple that a template makes from a row is well formed. -/
theorem isWellFormed_of_instance? {names : Slots} {row : Solution} {node : String → BlankNode}
    {p : Pattern} {t : Triple} (hp : ∀ place ∈ p.places, place.IsProper)
    (hrow : row.IsWellFormed) (hnode : ∀ label, .blank label ∈ p.places → (node label).IsWellFormed)
    (h : instance? names row node p = some t) : t.IsWellFormed := by
  have hterm : ∀ place ∈ p.places, ∀ u, placeTerm names row node place = some u →
      u.IsWellFormed := by
    intro place hplace u hu
    cases place with
    | var name => exact Valuation.isWellFormed_var names name row hrow u hu
    | term c =>
      cases hu
      exact hp _ hplace
    | blank label =>
      cases hu
      exact hnode label hplace
  obtain ⟨subject, hsubject, h⟩ := Option.bind_eq_some_iff.mp h
  obtain ⟨predicate, hpredicate, h⟩ := Option.bind_eq_some_iff.mp h
  obtain ⟨object, hobject, h⟩ := Option.bind_eq_some_iff.mp h
  refine isWellFormed_of_ofTerms? (hterm p.subject ?_ subject hsubject)
    (hterm p.predicate ?_ predicate hpredicate) (hterm p.object ?_ object hobject) h <;>
    simp [Pattern.places]

/-- The graph of a template and solutions of well-formed terms has well-formed triples. -/
theorem isWellFormed_of_mem_construct (hs : env.store.IsCoherent) {template : List Pattern}
    (htemplate : AllPlaces Place.IsProper template) {rows : List Solution}
    (hrows : AreWellFormed rows) {t : Triple} (ht : t ∈ construct env template rows) :
    t.IsWellFormed := by
  obtain ⟨node, -, hnumbered, hmem⟩ := instantiateAll_spec hs template 0 rows
  obtain ⟨i, row, hrow, p, hp, hinstance⟩ := (hmem t).mp (List.mem_eraseDups.mp ht)
  refine isWellFormed_of_instance? (htemplate p hp) (hrows row (List.mem_of_getElem? hrow))
    (fun label hlabel => ?_) hinstance
  obtain ⟨n, -, hname⟩ := hnumbered i row label hrow (usesLabel_of_instance? hp hinstance hlabel)
  rw [hname]
  exact isWellFormed_numbered n

/-- The answer of a query that was read has well-formed terms and plain names. -/
theorem answerOf_holdsTerms {s : Store} (hs : s.HoldsTerms) (h : Meets ingredients q) :
    (answerOf (envOf s q) q).HoldsTerms := by
  have hstore : (envOf s q).store.HoldsTerms := hs
  have hrows := areWellFormed_querySolutions hstore h
  unfold answerOf
  cases hform : q.form with
  | ask => trivial
  | construct template =>
    intro t ht
    refine isWellFormed_of_mem_construct hs.coherent (h.form.template template hform) ?_ ht
    intro row hrow
    exact hrows row ((sortedSolutions_perm _ _ _).mem_iff.mp (mem_of_mem_slicedList hrow))
  | select duplicates projection =>
    refine ⟨isPlainName_of_mem_columns h, fun row hrow => ?_⟩
    have hitems : ∀ e ∈ (Projection.itemsOf projection).filterMap SelectItem.value?,
        (Part.expr e).MeetsDeeply ingredients := by
      have hcomputed := h.form.computed
      rw [hform] at hcomputed
      cases projection with
      | all => exact fun _ he => absurd he List.not_mem_nil
      | items items => exact hcomputed
    have hcomputed := areWellFormed_itemSolutions hstore hitems hrows
    have htable := areWellFormed_tableSolutions (envOf s q) q.modifiers duplicates
      (slotsIn (envOf s q).names (columns q)) hcomputed
    obtain ⟨solution, hsolution, rfl⟩ := List.mem_map.mp hrow
    have hcolumns : ∀ v ∈ columns q, v ∈ (envOf s q).names := by
      have hall := columns_subset_slots q
      unfold outputColumns at hall
      rw [hform] at hall
      exact hall
    rw [map_get?_slotsIn hcolumns]
    exact ⟨_, rfl, fun name t ht =>
      Valuation.isWellFormed_var _ name solution (htable solution hsolution) t ht⟩

end Answers

end RdfStore.Eval

namespace RdfStore.Database

open Eval

/-- However a database was filled, a query that is read has an answer, of well-formed terms. -/
theorem IsFilled.answer {db : Database} (h : db.IsFilled) {text : String} {q : Query}
    (hread : Query.read text = .ok q) :
    ∃ a, db.answer text = .ok a ∧ a = answerOf (envOf db.store q) q ∧ a.HoldsTerms := by
  refine ⟨_, ?_, rfl, answerOf_holdsTerms h.holdsTerms (Query.meets_ingredients hread)⟩
  unfold Database.answer
  rw [hread]
  show (execute db.store q).mapError Error.execution = _
  rw [execute_eq db.store (Query.read_placed hread)]
  rfl

end RdfStore.Database

/-!
## Terms that come from texts

A term enters by being read alone, in a document or in a query, and leaves in an answer over a
store of such terms; what left may be stored again. Being written and read is the identity on all
of them, so they are known by what is written for them.
-/

namespace RdfStore

/-- A triple is well formed if its three terms are, each in its position. -/
theorem Triple.isWellFormed_iff {t : Triple} :
    t.IsWellFormed ↔ ∀ u ∈ t.terms, u.IsWellFormed := by
  constructor
  · intro h u hu
    rcases List.mem_cons.mp hu with rfl | hu
    · exact h.subject.toTerm
    rcases List.mem_cons.mp hu with rfl | hu
    · exact h.predicate
    · rw [List.mem_singleton.mp hu]
      exact h.object
  · intro h
    refine ⟨?_, h (.iri t.predicate) (by simp [Triple.terms]), h t.object (by simp [Triple.terms])⟩
    have hsubject := h t.subject.toTerm (by simp [Triple.terms])
    revert hsubject
    cases t.subject <;> exact id

/-! ## Stores of well-formed triples -/

namespace Store

/-- The triples that a call hands to a store. -/
def Call.triples : Call → List Triple
  | .add t => [t]
  | .extend triples => triples
  | .insertScoped batch => batch
  | .freshBlank | .clear | .readClock => []

variable {s : Store}

/-- Adding well-formed triples keeps all terms well formed. -/
theorem HoldsTerms.extend (hs : s.HoldsTerms) {triples : List Triple}
    (htriples : ∀ t ∈ triples, t.IsWellFormed) : (s.extend triples).2.HoldsTerms := by
  induction triples generalizing s with
  | nil => exact hs
  | cons t rest ih =>
    have hadded := hs.add (htriples t List.mem_cons_self)
    exact ih hadded fun u hu => htriples u (List.mem_cons_of_mem _ hu)

/-- A fresh blank node costs names and clock readings, but changes no triple. -/
theorem HoldsTerms.freshBlank (hs : s.HoldsTerms) : s.freshBlank.2.HoldsTerms := by
  obtain ⟨clock, attempts, hstate, -⟩ := freshBlank_spec s
  rw [hstate]
  exact ⟨isCoherent_renamed hs.coherent clock attempts, hs.wellFormed⟩

/-- A call with well-formed triples keeps the triples well-formed. -/
theorem HoldsTerms.perform (hs : s.HoldsTerms) {call : Call}
    (hcall : ∀ t ∈ call.triples, t.IsWellFormed) : (s.perform call).2.HoldsTerms := by
  cases call with
  | add t => exact hs.add (hcall t List.mem_cons_self)
  | extend triples => exact hs.extend hcall
  | insertScoped batch => exact hs.insertScoped hcall
  | freshBlank => exact hs.freshBlank
  | clear => exact HoldsTerms.clear s
  | readClock => exact hs.now

/-- Calls with well-formed triples keep the triples well-formed. -/
theorem HoldsTerms.performAll (hs : s.HoldsTerms) {calls : List Call}
    (hcalls : ∀ call ∈ calls, ∀ t ∈ call.triples, t.IsWellFormed) :
    (s.performAll calls).2.HoldsTerms := by
  induction calls generalizing s with
  | nil => exact hs
  | cons call rest ih =>
    have hfirst := hs.perform (hcalls call List.mem_cons_self)
    exact ih hfirst fun other hother => hcalls other (List.mem_cons_of_mem _ hother)

end Store

/-! ## Terms from texts -/

namespace Eval

/-- The terms of an answer. -/
def Answer.terms : Answer → List Term
  | .solutions _ rows => rows.flatMap fun row => row.filterMap id
  | .boolean _ => []
  | .graph triples => triples.flatMap Triple.terms

/-- Every term of an answer that holds terms is well formed. -/
theorem Answer.HoldsTerms.isWellFormed {a : Answer} (h : a.HoldsTerms) {t : Term}
    (ht : t ∈ a.terms) : t.IsWellFormed := by
  cases a with
  | solutions columns rows =>
    obtain ⟨row, hrow, ht⟩ := List.mem_flatMap.mp ht
    obtain ⟨cell, hcell, hterm⟩ := List.mem_filterMap.mp ht
    rw [id_eq] at hterm
    subst hterm
    exact IsTable.isWellFormed h hrow hcell
  | boolean value => exact absurd ht List.not_mem_nil
  | graph triples =>
    obtain ⟨triple, htriple, ht⟩ := List.mem_flatMap.mp ht
    exact Triple.isWellFormed_iff.mp (h triple htriple) t ht

end Eval

/-- A term that was read alone or in a document, or that is in the answer of a query on a store
that was filled with triples of such terms. -/
inductive Term.IsFromText : Term → Prop where
  | alone {text : String} {t : Term} (h : Term.read text = .ok t) : IsFromText t
  | document {text : String} {base : Option String} {triples : List Triple}
    (h : Turtle.read text base = .ok triples) {triple : Triple} (htriple : triple ∈ triples)
    {t : Term} (ht : t ∈ triple.terms) : IsFromText t
  | answer {clock : Clock} {calls : List Store.Call}
    (hcalls : ∀ call ∈ calls, ∀ triple ∈ call.triples, ∀ t ∈ triple.terms, IsFromText t)
    {text : String} {q : Query} (hread : Query.read text = .ok q) {a : Eval.Answer}
    (hanswer : Eval.execute ((Store.empty clock).performAll calls).2 q = .ok a)
    {t : Term} (ht : t ∈ a.terms) : IsFromText t

namespace Term

/-- By induction on where the term comes from: a store filled with well-formed terms holds only
such, whatever names its batches got, and so does each of its answers. -/
theorem IsFromText.isWellFormed {t : Term} (h : t.IsFromText) : t.IsWellFormed := by
  induction h with
  | alone h => exact isWellFormed_of_read h
  | document h htriple ht =>
    exact Triple.isWellFormed_iff.mp (Turtle.isWellFormed_of_read h _ htriple) _ ht
  | @answer clock calls _ text q hread a hanswer t ht ih =>
    have hstore := (Store.holdsTerms_empty clock).performAll fun call hcall triple htriple =>
      Triple.isWellFormed_iff.mpr (ih call hcall triple htriple)
    rw [Eval.execute_eq _ (Query.read_placed hread)] at hanswer
    have hterms := Eval.answerOf_holdsTerms hstore (Query.meets_ingredients hread)
    rw [Except.ok.inj hanswer] at hterms
    exact hterms.isWellFormed ht

/-- A term from a text is read from what is written for it, and no other such term is written
alike. -/
theorem IsFromText.read_back {t : Term} (h : t.IsFromText) :
    Term.read t.written = .ok t ∧ ∀ u : Term, u.IsFromText → u.written = t.written → u = t := by
  have hback := Term.read_written h.isWellFormed
  refine ⟨hback, fun u hu hwritten => ?_⟩
  have hother := Term.read_written hu.isWellFormed
  rw [hwritten, hback] at hother
  exact (Except.ok.inj hother).symm

/-- Escapes and upper case are read, and what is written for the term is read again. -/
theorem read_back_tagged :
    Term.read "\"\\u0061\\t\"@EN-gb" = .ok (.literal ⟨"a\t", .tagged "en-gb"⟩) ∧
      Term.read "\"a\\t\"@en-gb" = .ok (.literal ⟨"a\t", .tagged "en-gb"⟩) := by
  have hread : Term.read "\"\\u0061\\t\"@EN-gb" = .ok (.literal ⟨"a\t", .tagged "en-gb"⟩) := by
    rfl
  have hwritten : (Term.literal ⟨"a\t", .tagged "en-gb"⟩).written = "\"a\\t\"@en-gb" := by rfl
  refine ⟨hread, ?_⟩
  rw [← hwritten]
  exact (IsFromText.read_back (.alone hread)).1

end Term

end RdfStore
