import RdfStore.Proofs.Syntax.TokenTerms
import RdfStore.Turtle.Reader

/-!
# Documents state well-formed triples

Whatever a document says, the triples that are read from it are well-formed, and so are the
blank nodes that its labels have got. Every step of the reader keeps that. Nothing is asked of
the nodes: what the grammar does not say of them the checked constructors see to.
-/

set_option autoImplicit false

namespace RdfStore.Turtle

open RdfStore.Peg RdfStore.Syntax

/-- The nodes of labels and the triples so far are well-formed. -/
structure ReaderState.HoldsTerms (s : ReaderState) : Prop where
  labels : ∀ entry ∈ s.labels, entry.2.IsWellFormed
  triples : ∀ t ∈ s.triples.toList, t.IsWellFormed

/-- A part of the reader keeps what is read well-formed, and its answers have a property. -/
def Keeps {α : Type} (m : ReaderM α) (p : α → Prop) : Prop :=
  ∀ s a s', s.HoldsTerms → m.run s = .ok (a, s') → p a ∧ s'.HoldsTerms

variable {α β : Type} {m : ReaderM α} {p q : α → Prop}

/-! ## Steps -/

/-- A value without a step keeps what holds of it. -/
theorem keeps_pure {a : α} (h : p a) : Keeps (pure a) p := by
  intro s b s' hs hrun
  cases hrun
  exact ⟨h, hs⟩

/-- A refusal leaves no state whose terms could be wrong. -/
theorem keeps_refuse (index : Nat) (problem : Problem) :
    Keeps (refuse index problem : ReaderM α) p := by
  intro s a s' _ hrun
  cases hrun

/-- A step that keeps the terms well formed goes on with what it gave. -/
theorem Keeps.bind {f : α → ReaderM β} {r : β → Prop} (h : Keeps m p)
    (hf : ∀ a, p a → Keeps (f a) r) : Keeps (m >>= f) r := by
  intro s b s' hs hrun
  rw [StateT.run_bind] at hrun
  obtain ⟨⟨a, s₁⟩, ha, hb⟩ := bind_eq_ok hrun
  obtain ⟨hp, hs₁⟩ := h s a s₁ hs ha
  exact hf a hp s₁ b s' hs₁ hb

/-- Changing the value keeps the terms well formed. -/
theorem Keeps.map {f : α → β} {r : β → Prop} (h : Keeps m p) (hf : ∀ a, p a → r (f a)) :
    Keeps (f <$> m) r := by
  rw [← bind_pure_comp]
  exact h.bind fun a ha => keeps_pure (hf a ha)

/-- A look at the state is a step that keeps it. -/
theorem keeps_get : Keeps get ReaderState.HoldsTerms := by
  intro s a s' hs hrun
  cases hrun
  exact ⟨hs, hs⟩

/-- A change of the state has to keep it well-formed. -/
theorem keeps_modify {f : ReaderState → ReaderState}
    (h : ∀ s : ReaderState, s.HoldsTerms → (f s).HoldsTerms) :
    Keeps (modify f) fun _ => True := by
  intro s a s' hs hrun
  cases hrun
  exact ⟨trivial, h s hs⟩

/-- What is taken is a result. -/
theorem keeps_take {r : Except TokenFailure α} (h : ∀ a, r = .ok a → p a) : Keeps (take r) p := by
  cases r with
  | ok a => exact keeps_pure (h a rfl)
  | error e => exact keeps_refuse _ _

/-! ## Terms -/

/-- A fresh blank node is well formed. -/
theorem freshBlank_keeps : Keeps freshBlank BlankNode.IsWellFormed := by
  intro s a s' hs hrun
  cases hrun
  exact ⟨BlankNode.isWellFormed_numbered rfl (by decide) _, hs.labels, hs.triples⟩

/-- The blank node of a label is well formed. -/
theorem labelledBlank_keeps (label : String) :
    Keeps (labelledBlank label) BlankNode.IsWellFormed := by
  refine keeps_get.bind fun s hs => ?_
  split
  · rename_i node hlookup
    obtain ⟨before, after, hlabels, -⟩ := List.lookup_eq_some_iff.mp hlookup
    refine keeps_pure (hs.labels (label, node) ?_)
    rw [hlabels]
    exact List.mem_append_right before List.mem_cons_self
  · refine freshBlank_keeps.bind fun node hnode => ?_
    refine Keeps.bind (keeps_modify fun s hs => ?_) fun _ _ => keeps_pure hnode
    refine ⟨fun entry hentry => ?_, hs.triples⟩
    rcases List.mem_cons.mp hentry with rfl | hentry
    · exact hnode
    · exact hs.labels entry hentry

/-- Writing down a well-formed triple keeps the triples well formed. -/
theorem emit_keeps {subject : Subject} {predicate : Iri} {object : Term}
    (hs : subject.IsWellFormed) (hp : predicate.IsWellFormed) (ho : object.IsWellFormed) :
    Keeps (emit subject predicate object) fun _ => True := by
  refine keeps_modify fun s h => ⟨h.labels, fun t ht => ?_⟩
  rw [Array.toList_push, List.mem_append, List.mem_singleton] at ht
  rcases ht with ht | rfl
  · exact h.triples t ht
  · exact ⟨hs, hp, ho⟩

/-- An address that is read is well formed. -/
theorem readIri_keeps (node : Node) : Keeps (readIri node) Iri.IsWellFormed :=
  keeps_get.bind fun _ _ => keeps_take fun _ h => IriScope.isWellFormed_of_iri h

/-- A literal that is read is well formed. -/
theorem readLiteral_keeps (node : Node) : Keeps (readLiteral node) Literal.IsWellFormed :=
  keeps_get.bind fun _ _ => keeps_take fun _ h => IriScope.isWellFormed_of_literal h

/-- The cells of a list are linked by well-formed triples. -/
theorem linkCells_keeps {items : List Term} {tail : Term} (hitems : ∀ t ∈ items, t.IsWellFormed)
    (htail : tail.IsWellFormed) : Keeps (linkCells items tail) Term.IsWellFormed := by
  obtain ⟨hfirst, hrest, -⟩ := Vocabulary.isWellFormed_rdf
  induction items generalizing tail with
  | nil => exact keeps_pure htail
  | cons item before ih =>
    refine freshBlank_keeps.bind fun cell hcell => ?_
    have hsubject : (Subject.blank cell).IsWellFormed := hcell
    refine (emit_keeps hsubject hfirst (hitems item List.mem_cons_self)).bind fun _ _ => ?_
    refine (emit_keeps hsubject hrest htail).bind fun _ _ => ?_
    exact ih (fun t ht => hitems t (List.mem_cons_of_mem item ht)) hcell

mutual

/-- A node denotes a well-formed term. -/
theorem readTerm_keeps : ∀ node : Node, Keeps (readTerm node) Term.IsWellFormed
  | .node rule start text children => by
    have hiri := readIri_keeps (.node rule start text children)
    unfold readTerm
    split
    · exact hiri.map fun _ h => h
    · exact hiri.map fun _ h => h
    · exact hiri.map fun _ h => h
    · exact (labelledBlank_keeps _).map fun _ h => h
    · exact freshBlank_keeps.map fun _ h => h
    · refine freshBlank_keeps.bind fun node hnode => ?_
      have hsubject : (Subject.blank node).IsWellFormed := hnode
      exact (readProperties_keeps hsubject children).bind fun _ _ => keeps_pure hnode
    · refine (readTerms_keeps children).bind fun items hitems => ?_
      have hnil := Vocabulary.isWellFormed_rdf.2.2.1
      exact linkCells_keeps (fun t ht => hitems t (List.mem_reverse.mp ht)) hnil
    · exact (readLiteral_keeps _).map fun _ h => h
    · exact keeps_pure (Literal.isWellFormed_xsd (by simp) _)
    · exact keeps_pure (Literal.isWellFormed_xsd (by simp) _)
    · exact keeps_pure (Literal.isWellFormed_xsd (by simp) _)
    · exact keeps_pure (Literal.isWellFormed_xsd (by simp) _)
    · exact keeps_refuse _ _

/-- Nodes denote well-formed terms. -/
theorem readTerms_keeps : ∀ nodes : List Node,
    Keeps (readTerms nodes) fun terms => ∀ t ∈ terms, t.IsWellFormed
  | [] => keeps_pure fun _ ht => absurd ht List.not_mem_nil
  | node :: nodes =>
    (readTerm_keeps node).bind fun _ hterm =>
      (readTerms_keeps nodes).bind fun _ hterms =>
        keeps_pure fun t ht => (List.mem_cons.mp ht).elim (fun heq => heq ▸ hterm) (hterms t)

/-- The properties of a subject are stated. -/
theorem readProperties_keeps {subject : Subject} (hsubject : subject.IsWellFormed) :
    ∀ nodes : List Node, Keeps (readProperties subject nodes) fun _ => True
  | .node _ _ _ items :: _ => readVerbObjects_keeps hsubject none (fun _ h => nomatch h) items
  | [] => keeps_pure trivial

/-- Verbs and objects are stated of a subject. -/
theorem readVerbObjects_keeps {subject : Subject} (hsubject : subject.IsWellFormed)
    (verb : Option Iri) (hverb : ∀ predicate, verb = some predicate → predicate.IsWellFormed) :
    ∀ nodes : List Node, Keeps (readVerbObjects subject verb nodes) fun _ => True
  | [] => keeps_pure trivial
  | .node rule start text children :: rest => by
    unfold readVerbObjects
    split
    · split
      · exact keeps_refuse _ _
      · rename_i predicate
        refine (readObjects_keeps hsubject (hverb predicate rfl) children).bind fun _ _ => ?_
        exact readVerbObjects_keeps hsubject (some predicate) hverb rest
    · refine readVerbObjects_keeps hsubject _ (fun predicate h => ?_) rest
      cases h
      exact Vocabulary.isWellFormed_rdf.2.2.2
    · refine (readIri_keeps _).bind fun predicate hpredicate => ?_
      refine readVerbObjects_keeps hsubject _ (fun other h => ?_) rest
      cases h
      exact hpredicate

/-- Objects are stated of a subject and a predicate. -/
theorem readObjects_keeps {subject : Subject} {predicate : Iri} (hs : subject.IsWellFormed)
    (hp : predicate.IsWellFormed) :
    ∀ nodes : List Node, Keeps (readObjects subject predicate nodes) fun _ => True
  | [] => keeps_pure trivial
  | node :: nodes =>
    (readTerm_keeps node).bind fun _ hterm =>
      (emit_keeps hs hp hterm).bind fun _ _ => readObjects_keeps hs hp nodes

end

/-! ## Documents -/

/-- A subject that is read is well formed. -/
theorem readSubject_keeps (node : Node) : Keeps (readSubject node) Subject.IsWellFormed := by
  refine (readTerm_keeps node).bind fun term hterm => ?_
  split
  · rename_i subject hsubject
    cases term with
    | iri | blank =>
      cases hsubject
      exact keeps_pure hterm
    | literal => cases hsubject
  · exact keeps_refuse _ _

/-- Triples that are read are well formed. -/
theorem readTriples_keeps (nodes : List Node) : Keeps (readTriples nodes) fun _ => True := by
  cases nodes with
  | nil => exact keeps_pure trivial
  | cons first rest =>
    exact (readSubject_keeps first).bind fun _ hsubject => readProperties_keeps hsubject rest

/-- A statement keeps the triples well formed. -/
theorem readStatement_keeps (node : Node) : Keeps (readStatement node) fun _ => True := by
  have hscope : ∀ s scope, ReaderState.HoldsTerms s → ReaderState.HoldsTerms { s with scope } :=
    fun _ _ hs => ⟨hs.labels, hs.triples⟩
  unfold readStatement
  split
  · exact (readIri_keeps _).bind fun _ _ => keeps_modify fun s hs => hscope s _ hs
  · exact (readIri_keeps _).bind fun _ _ => keeps_modify fun s hs => hscope s _ hs
  · exact (readIri_keeps _).bind fun _ _ => keeps_modify fun s hs => hscope s _ hs
  · exact (readIri_keeps _).bind fun _ _ => keeps_modify fun s hs => hscope s _ hs
  · exact readTriples_keeps _
  · exact keeps_pure trivial

/-- Statements in a row keep the triples well formed. -/
theorem readStatements_keeps (nodes : List Node) :
    Keeps (readStatements nodes) fun _ => True := by
  induction nodes with
  | nil => exact keeps_pure trivial
  | cons node nodes ih => exact (readStatement_keeps node).bind fun _ _ => ih

/-- The statements of a matched document. -/
def statementsOf (nodes : List Node) : List Node := nodes.flatMap ParseTree.children

/-- A document that is read was matched, and its statements were run from the start. -/
theorem exists_run_of_read {text : String} {base : Option String} {ts : List Triple}
    (h : read text base = .ok ts) :
    ∃ nodes s, parseDocument text.toList = .ok nodes ∧
      (readStatements (statementsOf nodes)).run (.start base) = .ok ((), s) ∧
        ts = s.triples.toList := by
  unfold read at h
  dsimp only at h
  split at h
  · cases h
  rename_i nodes hparse
  split at h
  · cases h
  split at h
  · rename_i triples hread
    cases h
    obtain ⟨⟨u, s⟩, hrun, hs⟩ := bind_eq_ok hread
    cases hs
    exact ⟨nodes, s, hparse, hrun, rfl⟩
  · cases h

/-- All triples that are read from a document are well-formed. -/
theorem isWellFormed_of_read {text : String} {base : Option String} {ts : List Triple}
    (h : read text base = .ok ts) : ∀ t ∈ ts, t.IsWellFormed := by
  have hstart : (ReaderState.start base).HoldsTerms :=
    { labels := fun _ h => absurd h List.not_mem_nil
      triples := fun _ h => absurd h List.not_mem_nil }
  obtain ⟨nodes, s, -, hrun, rfl⟩ := exists_run_of_read h
  exact (readStatements_keeps _ _ () s hstart hrun).2.triples

end RdfStore.Turtle
