import RdfStore.Proofs.Term.Renaming
import RdfStore.Turtle.Reader

/-!
# Blank nodes of a document

The reader names the blank nodes of a document as they turn up. A label keeps its node, and
different labels have different nodes. `Stating` says how the reader goes from one state to
another: labels keep their nodes, the scope stays, and the given triples are stated under the
nodes of their labels. Stating composes, so a run of the reader is described part by part.
-/

set_option autoImplicit false

namespace RdfStore.Turtle

/-! ## Names -/

namespace ReaderState

/-- The node of a label that the document uses; a node without one keeps its label. -/
def name (s : ReaderState) (node : BlankNode) : BlankNode := (s.labels.lookup node.label).getD node

/-- A label has a node. -/
def Knows (s : ReaderState) (node : BlankNode) : Prop :=
  ∃ new, s.labels.lookup node.label = some new

/-- Different labels have different nodes, which are numbered below the next one. -/
structure IsNamed (s : ReaderState) : Prop where
  injective : ∀ a b new, s.labels.lookup a = some new → s.labels.lookup b = some new → a = b
  numbered : ∀ a new, s.labels.lookup a = some new →
    ∃ n, n < s.nextBlank ∧ new = ⟨"b" ++ toString n⟩

/-- At the start no label has a node. -/
theorem isNamed_start (base : Option String) : (start base).IsNamed where
  injective _ _ _ h := nomatch h
  numbered _ _ h := nomatch h

variable {s : ReaderState}

/-- The node that is looked up is the name. -/
theorem name_of_lookup {node new : BlankNode} (h : s.labels.lookup node.label = some new) :
    s.name node = new := by
  rw [name, h]
  rfl

/-- Known nodes with different labels have different names. -/
theorem IsNamed.name_injective (h : s.IsNamed) {a b : BlankNode} (ha : s.Knows a)
    (hb : s.Knows b) (heq : s.name a = s.name b) : a = b := by
  obtain ⟨new, hnew⟩ := ha
  obtain ⟨new', hnew'⟩ := hb
  rw [name_of_lookup hnew, name_of_lookup hnew'] at heq
  subst heq
  have hlabel := h.injective _ _ _ hnew hnew'
  cases a
  cases b
  exact congrArg BlankNode.mk hlabel

end ReaderState

/-! ## Stating -/

/-- From one state the reader gets to another by stating triples. -/
structure Stating (s s' : ReaderState) (ts : List Triple) : Prop where
  named : s'.IsNamed
  kept : ∀ label new, s.labels.lookup label = some new → s'.labels.lookup label = some new
  scope : s'.scope = s.scope
  triples : s'.triples.toList = s.triples.toList ++ ts.map (Triple.mapBlank s'.name)
  known : ∀ t ∈ ts, ∀ node, t.Mentions node → s'.Knows node

section Stating

variable {s s' s'' : ReaderState} {ts us : List Triple}

/-- Nothing has to be stated. -/
theorem Stating.refl (h : s.IsNamed) : Stating s s [] where
  named := h
  kept _ _ hnew := hnew
  scope := rfl
  triples := (List.append_nil _).symm
  known _ ht := nomatch ht

/-- A node that is known stays known. -/
theorem Stating.knows (h : Stating s s' ts) {node : BlankNode} (hnode : s.Knows node) :
    s'.Knows node := by
  obtain ⟨new, hnew⟩ := hnode
  exact ⟨new, h.kept _ _ hnew⟩

/-- A node that is known keeps its name. -/
theorem Stating.name_eq (h : Stating s s' ts) {node : BlankNode} (hnode : s.Knows node) :
    s'.name node = s.name node := by
  obtain ⟨new, hnew⟩ := hnode
  rw [ReaderState.name_of_lookup hnew, ReaderState.name_of_lookup (h.kept _ _ hnew)]

/-- Stating goes on from where it was left. -/
theorem Stating.trans (h : Stating s s' ts) (h' : Stating s' s'' us) :
    Stating s s'' (ts ++ us) where
  named := h'.named
  kept _ _ hnew := h'.kept _ _ (h.kept _ _ hnew)
  scope := h'.scope.trans h.scope
  triples := by
    -- the nodes of the first triples are known before the others are stated
    have hfirst : ts.map (Triple.mapBlank s''.name) = ts.map (Triple.mapBlank s'.name) :=
      List.map_congr_left fun t ht =>
        Triple.mapBlank_congr fun node hm => h'.name_eq (h.known t ht node hm)
    rw [h'.triples, h.triples, List.map_append, hfirst, List.append_assoc]
  known t ht node hm := by
    rcases List.mem_append.mp ht with ht | ht
    · exact h'.knows (h.known t ht node hm)
    · exact h'.known t ht node hm

/-! ## Steps of the reader -/

/-- A step of the reader and what comes after it. -/
theorem run_bind {α β : Type} {m : ReaderM α} {f : α → ReaderM β} {a : α}
    (h : m.run s = .ok (a, s')) : (m >>= f).run s = (f a).run s' := by
  rw [StateT.run_bind, h]
  rfl

/-- A step of the reader of which the answer is changed. -/
theorem run_map {α β : Type} {m : ReaderM α} {f : α → β} {a : α}
    (h : m.run s = .ok (a, s')) : (f <$> m).run s = .ok (f a, s') := by
  rw [StateT.run_map, h]
  rfl

/-- A label that has a node keeps it. -/
theorem run_labelledBlank_known {label : String} {new : BlankNode}
    (h : s.labels.lookup label = some new) : (labelledBlank label).run s = .ok (new, s) := by
  unfold labelledBlank
  rw [StateT.run_bind, StateT.run_get, pure_bind, h]
  rfl

/-- The state after a new label has got the next node. -/
def ReaderState.withLabel (s : ReaderState) (label : String) : ReaderState :=
  { s with
    labels := (label, ⟨"b" ++ toString s.nextBlank⟩) :: s.labels, nextBlank := s.nextBlank + 1 }

/-- A new label gets the next node. -/
theorem run_labelledBlank_new {label : String} (h : s.labels.lookup label = none) :
    (labelledBlank label).run s = .ok (⟨"b" ++ toString s.nextBlank⟩, s.withLabel label) := by
  unfold labelledBlank
  rw [StateT.run_bind, StateT.run_get, pure_bind, h]
  rfl

/-- Nodes stay different when a new label gets the next one. -/
theorem ReaderState.IsNamed.withLabel (hs : s.IsNamed) (label : String) :
    (s.withLabel label).IsNamed := by
  have hfresh : ∀ a new, s.labels.lookup a = some new →
      new ≠ ⟨"b" ++ toString s.nextBlank⟩ := by
    intro a new hnew heq
    obtain ⟨n, hn, rfl⟩ := hs.numbered a new hnew
    exact absurd (numbered_injective heq) (Nat.ne_of_lt hn)
  refine ⟨lookup_cons_injective hs.injective hfresh, fun a new ha => ?_⟩
  rcases lookup_cons_cases ha with ⟨-, hnew⟩ | ha
  · exact ⟨s.nextBlank, Nat.lt_succ_self _, hnew⟩
  · obtain ⟨n, hn, hnew⟩ := hs.numbered a new ha
    exact ⟨n, Nat.lt_succ_of_lt hn, hnew⟩

/-- A label gets a node, or keeps the one it has. -/
theorem run_labelledBlank (hs : s.IsNamed) (node : BlankNode) :
    ∃ s', (labelledBlank node.label).run s = .ok (s'.name node, s') ∧ Stating s s' [] ∧
      s'.Knows node := by
  cases hlookup : s.labels.lookup node.label with
  | some new =>
    refine ⟨s, ?_, Stating.refl hs, new, hlookup⟩
    rw [ReaderState.name_of_lookup hlookup]
    exact run_labelledBlank_known hlookup
  | none =>
    have hnew : (s.withLabel node.label).labels.lookup node.label =
        some ⟨"b" ++ toString s.nextBlank⟩ := List.lookup_cons_self
    refine ⟨s.withLabel node.label, ?_, ?_, _, hnew⟩
    · rw [ReaderState.name_of_lookup hnew]
      exact run_labelledBlank_new hlookup
    · refine ⟨hs.withLabel node.label, ?_, rfl, (List.append_nil _).symm, fun _ ht => nomatch ht⟩
      intro label old hold
      unfold ReaderState.withLabel
      rw [List.lookup_cons]
      split
      · rename_i heq
        rw [eq_of_beq heq, hlookup] at hold
        cases hold
      · exact hold

/-- A triple over known nodes is stated. -/
theorem run_emit (hs : s.IsNamed) {t : Triple} (ht : ∀ node, t.Mentions node → s.Knows node) :
    ∃ s', (emit (t.subject.mapBlank s.name) t.predicate (t.object.mapBlank s.name)).run s =
        .ok ((), s') ∧ Stating s s' [t] := by
  refine ⟨{ s with triples := s.triples.push (t.mapBlank s.name) }, rfl, ?_⟩
  constructor
  · exact ⟨hs.injective, hs.numbered⟩
  · exact fun _ _ hnew => hnew
  · rfl
  · exact Array.toList_push
  · intro u hu node hm
    rw [List.mem_singleton] at hu
    subst hu
    exact ht node hm

end Stating

end RdfStore.Turtle
