import RdfStore.Proofs.Outcome
import RdfStore.Proofs.Syntax.Marks
import RdfStore.Proofs.Turtle.Naming
import RdfStore.Proofs.Turtle.ReadTerms

/-!
# Blank nodes are scoped to their marks

The reader numbers blank nodes as it meets them; labels and spots draw from one counter. The log
lists the marks met so far, each once, and the node of a mark is numbered by its place in the log.
Every part of the reader extends the log by labels and by spots of its own part of the text, and
what it reads is what that part means under any naming that follows the log. At the end of a
document the log is extended to a naming of all marks that gives no node twice.
-/

set_option autoImplicit false

/-!
## The meaning of documents

What a matched document says under a naming of its blank nodes. An occurrence of a label means the
node of the label, and every `[]`, every `[ … ]` and every cell of a list means the node of its own
spot. The meaning follows the nodes of the text alone: it knows neither numbers nor the order in
which nodes are met. The reader agrees with it under a naming of all marks that gives no node
twice. What carries this is the log of the marks met so far, the number of a node being the place
of its mark.
-/

namespace RdfStore.Turtle

open RdfStore.Peg RdfStore.Syntax

/-! ## Meanings -/

/-- Triples about the cells of lists. -/
def listing : Listing BlankNode Term Triple where
  node := .blank
  state cell predicate object := ⟨.blank cell, predicate, object⟩

section Meaning

variable (ν : Mark → BlankNode) (scope : IriScope)

/-- The IRI of a token. -/
def saidIri (node : Node) : Said Triple Iri :=
  .ofExcept (scope.iri Symbol.terminal? node)

/-- The cells of the list at a node. -/
def cells (place : Path) (index : Nat) : BlankNode := ν (.spot (.cell place index))

mutual

/-- What a node at a place means as a term. -/
def saidTerm (place : Path) : Node → Said Triple Term
  | .node rule start text children =>
    match rule with
    | .terminal .iriRef | .terminal .prefixedName | .terminal .prefixedSpace =>
      Term.iri <$> saidIri scope (.node rule start text children)
    | .terminal .blankNodeLabel => pure (.blank (ν (.label (String.ofList (text.drop 2)))))
    | .terminal .anonymous => pure (.blank (ν (.spot (.node place))))
    | .blankNodePropertyList => do
      saidProperties place 0 (.blank (ν (.spot (.node place)))) children
      return .blank (ν (.spot (.node place)))
    | .collection => do
      let items ← saidTerms place 0 children
      listing.link (cells ν place) (.iri Vocabulary.rdfNil) items
    | .literal =>
      Term.literal <$> .ofExcept (scope.literal Symbol.terminal? (.node rule start text children))
    | .terminal .integer => pure (shorthand (.node rule start text children) Vocabulary.xsdInteger)
    | .terminal .decimal => pure (shorthand (.node rule start text children) Vocabulary.xsdDecimal)
    | .terminal .double => pure (shorthand (.node rule start text children) Vocabulary.xsdDouble)
    | .boolean => pure (shorthand (.node rule start text children) Vocabulary.xsdBoolean)
    | _ => .nothing

/-- What the children of a node from a position on mean as terms. -/
def saidTerms (place : Path) (i : Nat) : List Node → Said Triple (List Term)
  | [] => pure []
  | node :: nodes => do
    let term ← saidTerm (i :: place) node
    let terms ← saidTerms place (i + 1) nodes
    return term :: terms

/-- The properties of a subject, written in the child at a position if there is one. -/
def saidProperties (place : Path) (i : Nat) (subject : Subject) : List Node → Said Triple Unit
  | .node _ _ _ items :: _ => saidVerbObjects (i :: place) 0 subject none items
  | [] => pure ()

/-- Verbs and lists of objects from a position on. -/
def saidVerbObjects (place : Path) (i : Nat) (subject : Subject) (verb : Option Iri) :
    List Node → Said Triple Unit
  | [] => pure ()
  | .node rule start text children :: rest =>
    match rule with
    | .objectList =>
      match verb with
      | none => .nothing
      | some predicate => do
        saidObjects (i :: place) 0 subject predicate children
        saidVerbObjects place (i + 1) subject verb rest
    | .typeKeyword => saidVerbObjects place (i + 1) subject (some Vocabulary.rdfType) rest
    | _ => do
      let predicate ← saidIri scope (.node rule start text children)
      saidVerbObjects place (i + 1) subject (some predicate) rest

/-- One triple for every object from a position on. -/
def saidObjects (place : Path) (i : Nat) (subject : Subject) (predicate : Iri) :
    List Node → Said Triple Unit
  | [] => pure ()
  | node :: nodes => do
    let object ← saidTerm (i :: place) node
    Said.say [⟨subject, predicate, object⟩]
    saidObjects place (i + 1) subject predicate nodes

end

/-- A block of triples with a common subject. -/
def saidTriples (place : Path) (children : List Node) : Said Triple Unit :=
  match children with
  | [] => pure ()
  | first :: rest => do
    let term ← saidTerm ν scope (0 :: place) first
    match term.toSubject? with
    | some subject => saidProperties ν scope place 1 subject rest
    | none => .nothing

/-- One statement, with the scope that holds after it. -/
def saidStatement (place : Path) (node : Node) : Said Triple IriScope :=
  match node.rule, node.children with
  | .prefixDirective, [name, iri] | .sparqlPrefix, [name, iri] => do
    let iri ← saidIri scope iri
    return scope.define (definedPrefix name.text) iri.text
  | .baseDirective, [iri] | .sparqlBase, [iri] => do
    let iri ← saidIri scope iri
    return { scope with base := some iri.text }
  | .triples, children => do
    saidTriples ν scope place children
    return scope
  | _, _ => return scope

end Meaning

/-- The statements of a document from a position on, each in the scope that holds before it. -/
def saidStatements (ν : Mark → BlankNode) (i : Nat) : IriScope → List Node → Said Triple Unit
  | _, [] => pure ()
  | scope, node :: nodes => do
    let scope ← saidStatement ν scope [i] node
    saidStatements ν (i + 1) scope nodes

/-- What a matched document says under a naming of its blank nodes. -/
def saidDocument (ν : Mark → BlankNode) (base : Option String) (nodes : List Node) :
    Said Triple Unit :=
  saidStatements ν 0 (IriScope.ofBase base) (statementsOf nodes)

end RdfStore.Turtle

namespace RdfStore.Turtle

open RdfStore.Peg RdfStore.Syntax

/-! ## Logs -/

/-- The blank node of a number. -/
def numbered (n : Nat) : BlankNode := ⟨"b" ++ toString n⟩

/-- The marks that have got nodes, in the order of the numbers of these. -/
structure ReaderState.IsLogged (s : ReaderState) (log : List Mark) : Prop where
  nodup : log.Nodup
  count : s.nextBlank = log.length
  labels : ∀ name node, s.labels.lookup name = some node ↔
    ∃ i, log[i]? = some (.label name) ∧ node = numbered i

/-- A naming gives the marks of a log the nodes that they have got. -/
def FollowsLog (ν : Mark → BlankNode) (log : List Mark) : Prop :=
  ∀ (i : Nat) (mark : Mark), log[i]? = some mark → ν mark = numbered i

/-- A part of the reader has stated triples and given nodes to new marks; spots are its own. -/
structure Step (s s' : ReaderState) (log new : List Mark) (owned : Spot → Prop)
    (ts : List Triple) : Prop where
  logged : s'.IsLogged (log ++ new)
  owned : ∀ spot, .spot spot ∈ new → owned spot
  triples : s'.triples.toList = s.triples.toList ++ ts

/-- A part of the reader answers and states what its text means, in the same scope. -/
def Follows {α : Type} (m : ReaderM α) (owned : Spot → Prop)
    (said : (Mark → BlankNode) → IriScope → Said Triple α) : Prop :=
  ∀ s a s' log, s.IsLogged log → (∀ spot, owned spot → .spot spot ∉ log) → m.run s = .ok (a, s') →
    ∃ new ts, Step s s' log new owned ts ∧ s'.scope = s.scope ∧
      ∀ ν, FollowsLog ν (log ++ new) → said ν s.scope = .means a ts

/-- No spot is touched. -/
def noSpot : Spot → Prop := fun _ => False

variable {α β : Type} {m : ReaderM α} {owned owned' : Spot → Prop}
  {said said' : (Mark → BlankNode) → IriScope → Said Triple α} {s s' s'' : ReaderState}
  {log new more : List Mark} {ts us : List Triple}

/-- A naming that follows a log follows its beginning. -/
theorem FollowsLog.left {ν : Mark → BlankNode} (h : FollowsLog ν (log ++ new)) :
    FollowsLog ν log := by
  intro i mark hmark
  refine h i mark ?_
  have hi := (List.getElem?_eq_some_iff.mp hmark).1
  rw [List.getElem?_append_left hi, hmark]

/-- A naming that follows a log names its last mark by the number of those before. -/
theorem FollowsLog.last {ν : Mark → BlankNode} {mark : Mark} (h : FollowsLog ν (log ++ [mark])) :
    ν mark = numbered log.length := h log.length mark (by simp)

/-- When reading starts nothing is logged. -/
theorem isLogged_start (base : Option String) : (ReaderState.start base).IsLogged [] where
  nodup := List.nodup_nil
  count := rfl
  labels _ _ := ⟨nofun, nofun⟩

/-! ## Steps -/

/-- Without a step nothing is logged and nothing is said. -/
theorem Step.refl (h : s.IsLogged log) : Step s s log [] owned [] where
  logged := by rwa [List.append_nil]
  owned _ hspot := nomatch hspot
  triples := (List.append_nil _).symm

/-- Two steps log and say one after the other what each does. -/
theorem Step.trans (h : Step s s' log new owned ts)
    (h' : Step s' s'' (log ++ new) more owned us) :
    Step s s'' log (new ++ more) owned (ts ++ us) where
  logged := by
    rw [← List.append_assoc]
    exact h'.logged
  owned spot hspot := (List.mem_append.mp hspot).elim (h.owned spot) (h'.owned spot)
  triples := by rw [h'.triples, h.triples, List.append_assoc]

/-- A step that stays within some spots stays within more of them. -/
theorem Step.mono (h : Step s s' log new owned ts) (hle : ∀ spot, owned spot → owned' spot) :
    Step s s' log new owned' ts where
  logged := h.logged
  owned spot hspot := hle spot (h.owned spot hspot)
  triples := h.triples

/-- Spots that another part of the text owns stay out of the log. -/
theorem Step.fresh (h : Step s s' log new owned ts) {spot : Spot} (hspot : .spot spot ∉ log)
    (hother : ¬owned spot) : .spot spot ∉ log ++ new := by
  intro hmem
  rcases List.mem_append.mp hmem with hmem | hmem
  · exact hspot hmem
  · exact hother (h.owned spot hmem)

/-- A value without a step says nothing. -/
theorem follows_pure (a : α) : Follows (pure a) owned fun _ _ => pure a := by
  intro s b s' log hlog _ hrun
  cases hrun
  exact ⟨[], [], .refl hlog, rfl, fun _ _ => rfl⟩

/-- A refusal says nothing, so every naming is followed. -/
theorem follows_refuse (index : Nat) (problem : Problem) :
    Follows (refuse index problem : ReaderM α) owned said := by
  intro s a s' log _ _ hrun
  cases hrun

/-- What stays within some spots stays within more of them. -/
theorem Follows.mono (h : Follows m owned said) (hle : ∀ spot, owned spot → owned' spot) :
    Follows m owned' said := by
  intro s a s' log hlog hfresh hrun
  obtain ⟨new, ts, hstep, hscope, hsaid⟩ :=
    h s a s' log hlog (fun spot hspot => hfresh spot (hle spot hspot)) hrun
  exact ⟨new, ts, hstep.mono hle, hscope, hsaid⟩

/-- Two parts that own different spots follow what both mean. -/
theorem Follows.bind {f : α → ReaderM β} {first second : Spot → Prop}
    {then' : α → (Mark → BlankNode) → IriScope → Said Triple β} (h : Follows m first said)
    (hf : ∀ a, Follows (f a) second (then' a)) (hfirst : ∀ spot, first spot → owned spot)
    (hsecond : ∀ spot, second spot → owned spot)
    (hapart : ∀ spot, first spot → ¬second spot) :
    Follows (m >>= f) owned fun ν scope => said ν scope >>= fun a => then' a ν scope := by
  intro s b s'' log hlog hfresh hrun
  rw [StateT.run_bind] at hrun
  obtain ⟨⟨a, s'⟩, ha, hb⟩ := bind_eq_ok hrun
  obtain ⟨new, ts, hstep, hscope, hsaid⟩ :=
    h s a s' log hlog (fun spot hspot => hfresh spot (hfirst spot hspot)) ha
  have hfresh' : ∀ spot, second spot → .spot spot ∉ log ++ new := fun spot hspot =>
    hstep.fresh (hfresh spot (hsecond spot hspot)) fun h => hapart spot h hspot
  obtain ⟨more, us, hstep', hscope', hsaid'⟩ := hf a s' b s'' _ hstep.logged hfresh' hb
  refine ⟨new ++ more, ts ++ us, (hstep.mono hfirst).trans (hstep'.mono hsecond),
    hscope'.trans hscope, fun ν hν => ?_⟩
  rw [← List.append_assoc] at hν
  have hthen := hsaid' ν hν
  rw [hscope] at hthen
  dsimp only
  rw [hsaid ν hν.left, Said.means_bind, hthen]
  rfl

/-- A first part that touches no spot. -/
theorem Follows.then {f : α → ReaderM β}
    {then' : α → (Mark → BlankNode) → IriScope → Said Triple β} (h : Follows m noSpot said)
    (hf : ∀ a, Follows (f a) owned (then' a)) :
    Follows (m >>= f) owned fun ν scope => said ν scope >>= fun a => then' a ν scope :=
  h.bind hf (fun _ h => h.elim) (fun _ h => h) fun _ h => h.elim

/-- A part that is followed by its answer only. -/
theorem Follows.last (h : Follows m owned said) (f : α → β) :
    Follows (m >>= fun a => pure (f a)) owned fun ν scope => said ν scope >>= fun a => pure (f a) :=
  have hpure : ∀ a, Follows (pure (f a)) noSpot fun _ _ => pure (f a) := fun a => follows_pure (f a)
  h.bind hpure (fun _ h => h) (fun _ h => h.elim) fun _ _ h => h

/-- Changing the value changes it in what is said. -/
theorem Follows.map (h : Follows m owned said) (f : α → β) :
    Follows (f <$> m) owned fun ν scope => f <$> said ν scope := by
  simpa only [bind_pure_comp] using h.last f

/-! ## The steps of the reader -/

/-- Reading an address gives what its node says. -/
theorem follows_readIri (node : Node) :
    Follows (readIri node) noSpot fun _ scope => saidIri scope node := by
  intro s a s' log hlog _ hrun
  unfold readIri at hrun
  rw [StateT.run_bind, StateT.run_get, pure_bind] at hrun
  dsimp only at hrun
  unfold saidIri
  cases hiri : s.scope.iri Symbol.terminal? node with
  | error e =>
    rw [hiri] at hrun
    cases hrun
  | ok iri =>
    rw [hiri] at hrun
    cases hrun
    exact ⟨[], [], .refl hlog, rfl, fun _ _ => congrArg Said.ofExcept hiri⟩

/-- Reading a literal gives what its node says. -/
theorem follows_readLiteral (node : Node) :
    Follows (readLiteral node) noSpot fun _ scope =>
      .ofExcept (scope.literal Symbol.terminal? node) := by
  intro s a s' log hlog _ hrun
  unfold readLiteral at hrun
  rw [StateT.run_bind, StateT.run_get, pure_bind] at hrun
  dsimp only at hrun
  cases hliteral : s.scope.literal Symbol.terminal? node with
  | error e =>
    rw [hliteral] at hrun
    cases hrun
  | ok literal =>
    rw [hliteral] at hrun
    cases hrun
    exact ⟨[], [], .refl hlog, rfl, fun _ _ => congrArg Said.ofExcept hliteral⟩

/-- A log is extended by a mark that is not in it. -/
theorem nodup_concat {mark : Mark} (h : log.Nodup) (hmark : mark ∉ log) :
    (log ++ [mark]).Nodup := by
  rw [List.nodup_append]
  refine ⟨h, List.nodup_singleton mark, fun a ha b hb => ?_⟩
  rw [List.mem_singleton.mp hb]
  exact ne_of_mem_of_not_mem ha hmark

/-- A log with one more mark has this mark at its end. -/
theorem getElem?_concat_eq_some {mark mark' : Mark} {i : Nat} :
    (log ++ [mark])[i]? = some mark' ↔ log[i]? = some mark' ∨ i = log.length ∧ mark' = mark := by
  rcases Nat.lt_trichotomy i log.length with hi | rfl | hi
  · rw [List.getElem?_append_left hi]
    simp [Nat.ne_of_lt hi]
  · simp [eq_comm]
  · have hne : i ≠ log.length := Nat.ne_of_gt hi
    rw [List.getElem?_eq_none (by simp; omega), List.getElem?_eq_none (Nat.le_of_lt hi)]
    simp [hne]

/-- A spot gets the next node. -/
theorem follows_freshBlank (spot : Spot) :
    Follows freshBlank (· = spot) fun ν _ => pure (ν (.spot spot)) := by
  intro s a s' log hlog hfresh hrun
  cases hrun
  have hnew : Mark.spot spot ∉ log := hfresh spot rfl
  refine ⟨[.spot spot], [], ⟨⟨nodup_concat hlog.nodup hnew, ?_, ?_⟩, ?_, ?_⟩, rfl, fun ν hν => ?_⟩
  · simp [hlog.count]
  · intro name node
    rw [hlog.labels name node]
    simp only [getElem?_concat_eq_some]
    simp
  · intro spot' hspot'
    simpa using hspot'
  · exact (List.append_nil _).symm
  · dsimp only
    rw [hν.last, ← hlog.count]
    rfl

/-- A label keeps the node that it has, or gets the next one. -/
theorem follows_labelledBlank (name : String) :
    Follows (labelledBlank name) noSpot fun ν _ => pure (ν (.label name)) := by
  intro s a s' log hlog _ hrun
  cases hlookup : s.labels.lookup name with
  | some node =>
    rw [run_labelledBlank_known hlookup] at hrun
    cases hrun
    obtain ⟨i, hi, rfl⟩ := (hlog.labels name a).mp hlookup
    refine ⟨[], [], .refl hlog, rfl, fun ν hν => ?_⟩
    dsimp only
    rw [hν.left i _ hi]
    rfl
  | none =>
    rw [run_labelledBlank_new hlookup] at hrun
    cases hrun
    have hnew : Mark.label name ∉ log := by
      intro hmem
      obtain ⟨i, hi⟩ := List.mem_iff_getElem?.mp hmem
      rw [(hlog.labels name (numbered i)).mpr ⟨i, hi, rfl⟩] at hlookup
      cases hlookup
    refine ⟨[.label name], [], ⟨⟨nodup_concat hlog.nodup hnew, ?_, ?_⟩, ?_, ?_⟩, rfl,
      fun ν hν => ?_⟩
    · simp [ReaderState.withLabel, hlog.count]
    · intro name' node
      simp only [ReaderState.withLabel, getElem?_concat_eq_some, List.lookup_cons]
      by_cases heq : name' = name
      · subst heq
        have hold : ∀ i : Nat, log[i]? ≠ some (Mark.label name') := fun i hi =>
          hnew (List.mem_of_getElem? hi)
        simp [hold, numbered, hlog.count, eq_comm]
      · have hne : (name' == name) = false := beq_eq_false_iff_ne.mpr heq
        rw [hne]
        simp [heq, hlog.labels]
    · intro spot hspot
      simp at hspot
    · exact (List.append_nil _).symm
    · dsimp only
      rw [hν.last, ← hlog.count]
      rfl

/-- Writing down a triple says it. -/
theorem follows_emit (subject : Subject) (predicate : Iri) (object : Term) :
    Follows (emit subject predicate object) noSpot fun _ _ =>
      Said.say [⟨subject, predicate, object⟩] := by
  intro s a s' log hlog _ hrun
  cases hrun
  refine ⟨[], [⟨subject, predicate, object⟩], ⟨?_, nofun, Array.toList_push⟩, rfl, fun _ _ => rfl⟩
  rw [List.append_nil]
  exact ⟨hlog.nodup, hlog.count, hlog.labels⟩

/-- Cells are linked from the last to the first. -/
theorem follows_linkCells (place : Path) (items : List Term) (tail : Term) :
    Follows (linkCells items.reverse tail) (Spot.IsCell place items.length) fun ν _ =>
      listing.link (cells ν place) tail items := by
  induction items using List.reverseRecOn generalizing tail with
  | nil => exact follows_pure tail
  | append_singleton items item ih =>
    rw [List.reverse_append, List.length_append]
    have hlast : ∀ spot : Spot, spot = .cell place items.length →
        spot.IsCell place (items.length + 1) := fun spot hspot => ⟨_, Nat.lt_succ_self _, hspot⟩
    have hothers : ∀ spot : Spot, spot.IsCell place items.length →
        spot.IsCell place (items.length + 1) :=
      fun spot ⟨i, hi, hspot⟩ => ⟨i, Nat.lt_succ_of_lt hi, hspot⟩
    have hcell := (follows_freshBlank (.cell place items.length)).bind
      (fun cell => (follows_emit (.blank cell) Vocabulary.rdfFirst item).then fun _ =>
        (follows_emit (.blank cell) Vocabulary.rdfRest tail).then fun _ => ih (.blank cell))
      hlast hothers ?_
    · simp only [listing.link_concat]
      exact hcell
    · rintro _ rfl ⟨i, hi, hcell⟩
      injection hcell with _ hindex
      omega

/-! ## Terms and properties -/

/-- The first of the children behind a position, then the others. -/
theorem Follows.children {f : α → ReaderM β} {place : Path} {i : Nat}
    {then' : α → (Mark → BlankNode) → IriScope → Said Triple β}
    (h : Follows m (Spot.IsInside (i :: place)) said)
    (hf : ∀ a, Follows (f a) (Spot.IsBehind place (i + 1)) (then' a)) :
    Follows (m >>= f) (Spot.IsBehind place i) fun ν scope =>
      said ν scope >>= fun a => then' a ν scope :=
  h.bind hf (fun _ h => h.behind) (fun _ h => h.mono (Nat.le_succ i)) fun _ h => h.not_behind

mutual

/-- The reader takes a node for the term that it means. -/
theorem readTerm_follows (place : Path) : ∀ node : Node,
    Follows (readTerm node) (Spot.IsInside place) fun ν scope => saidTerm ν scope place node
  | .node rule start text children => by
    have hnone : ∀ spot, noSpot spot → spot.IsInside place := fun _ h => h.elim
    have hiri := ((follows_readIri (.node rule start text children)).map Term.iri).mono hnone
    unfold readTerm saidTerm
    split
    · exact hiri
    · exact hiri
    · exact hiri
    · exact ((follows_labelledBlank _).map Term.blank).mono hnone
    · refine ((follows_freshBlank (.node place)).map Term.blank).mono ?_
      rintro _ rfl
      exact Spot.isInside_node place
    · have hnode : ∀ spot : Spot, spot = .node place → spot.IsInside place := by
        rintro _ rfl
        exact Spot.isInside_node place
      have hapart : ∀ spot : Spot, spot = .node place → ¬spot.IsBehind place 0 := by
        rintro _ rfl
        exact Spot.not_behind_of_place rfl
      have hread := (follows_freshBlank (.node place)).bind (fun node =>
        (readProperties_follows place 0 (.blank node) children).last fun _ => Term.blank node)
        hnode (fun _ h => h.inside) hapart
      simpa only [pure_bind] using hread
    · have hcells : ∀ count (spot : Spot), spot.IsCell place count → spot.place = place := by
        rintro _ _ ⟨i, -, rfl⟩
        rfl
      refine (readTerms_follows place 0 children).bind
        (fun items => (follows_linkCells place items (.iri Vocabulary.rdfNil)).mono (hcells _))
        (fun _ h => h.inside) ?_ ?_
      · rintro spot rfl
        exact List.suffix_rfl
      · intro spot hbehind hplace
        exact Spot.not_behind_of_place hplace hbehind
    · exact ((follows_readLiteral _).map Term.literal).mono hnone
    · exact follows_pure _
    · exact follows_pure _
    · exact follows_pure _
    · exact follows_pure _
    · exact follows_refuse _ _

/-- Terms in a row are read as the nodes say. -/
theorem readTerms_follows (place : Path) (i : Nat) : ∀ nodes : List Node,
    Follows (readTerms nodes) (Spot.IsBehind place i) fun ν scope => saidTerms ν scope place i nodes
  | [] => follows_pure []
  | node :: nodes =>
    (readTerm_follows (i :: place) node).children fun term =>
      (readTerms_follows place (i + 1) nodes).last fun terms => term :: terms

/-- A list of properties is read as the nodes say. -/
theorem readProperties_follows (place : Path) (i : Nat) (subject : Subject) : ∀ nodes : List Node,
    Follows (readProperties subject nodes) (Spot.IsBehind place i) fun ν scope =>
      saidProperties ν scope place i subject nodes
  | [] => follows_pure ()
  | .node _ _ _ items :: _ =>
    (readVerbObjects_follows (i :: place) 0 subject none items).mono fun _ h => h.inside.behind

/-- Verbs with their objects are read as the nodes say. -/
theorem readVerbObjects_follows (place : Path) (i : Nat) (subject : Subject) (verb : Option Iri) :
    ∀ nodes : List Node, Follows (readVerbObjects subject verb nodes) (Spot.IsBehind place i)
      fun ν scope => saidVerbObjects ν scope place i subject verb nodes
  | [] => follows_pure ()
  | .node rule start text children :: rest => by
    have hle : ∀ spot : Spot, spot.IsBehind place (i + 1) → spot.IsBehind place i :=
      fun _ h => h.mono (Nat.le_succ i)
    unfold readVerbObjects
    split
    · cases verb with
      | none => exact follows_refuse _ _
      | some predicate =>
        exact ((readObjects_follows (i :: place) 0 subject predicate children).mono
          fun _ h => h.inside).children fun _ =>
            readVerbObjects_follows place (i + 1) subject (some predicate) rest
    · exact (readVerbObjects_follows place (i + 1) subject _ rest).mono hle
    · rename_i hobjects htype
      have hsaid : ∀ ν scope, saidVerbObjects ν scope place i subject verb
          (.node rule start text children :: rest) =
            saidIri scope (.node rule start text children) >>= fun predicate =>
              saidVerbObjects ν scope place (i + 1) subject (some predicate) rest := by
        intro ν scope
        rw [saidVerbObjects]
        · exact hobjects
        · exact htype
      have hread := (follows_readIri (.node rule start text children)).then fun predicate =>
        (readVerbObjects_follows place (i + 1) subject (some predicate) rest).mono hle
      simpa only [← hsaid] using hread

/-- Objects in a row are read as the nodes say. -/
theorem readObjects_follows (place : Path) (i : Nat) (subject : Subject) (predicate : Iri) :
    ∀ nodes : List Node, Follows (readObjects subject predicate nodes) (Spot.IsBehind place i)
      fun ν scope => saidObjects ν scope place i subject predicate nodes
  | [] => follows_pure ()
  | node :: nodes =>
    (readTerm_follows (i :: place) node).children fun object =>
      (follows_emit subject predicate object).then fun _ =>
        readObjects_follows place (i + 1) subject predicate nodes

end

/-! ## Documents -/

/-- The triples of a statement are read as the nodes say. -/
theorem readTriples_follows (place : Path) (children : List Node) :
    Follows (readTriples children) (Spot.IsInside place) fun ν scope =>
      saidTriples ν scope place children := by
  cases children with
  | nil => exact follows_pure ()
  | cons first rest =>
    unfold readTriples readSubject saidTriples
    dsimp only
    rw [bind_assoc]
    refine ((readTerm_follows (0 :: place) first).children fun term => ?_).mono fun _ h => h.inside
    cases term.toSubject? with
    | some subject =>
      rw [pure_bind]
      exact readProperties_follows place 1 subject rest
    | none => exact follows_refuse first.start .literalSubject

/-- What is neither a directive nor a block of triples says nothing. -/
theorem saidStatement_eq_pure {ν : Mark → BlankNode} {scope : IriScope} {place : Path}
    {rule : Symbol} {start : Nat} {text : List Char} {children : List Node}
    (hprefixed : ∀ name iri, rule = .prefixDirective ∨ rule = .sparqlPrefix →
      children ≠ [name, iri])
    (hbased : ∀ iri, rule = .baseDirective ∨ rule = .sparqlBase → children ≠ [iri])
    (htriples : rule ≠ .triples) :
    saidStatement ν scope place (.node rule start text children) = pure scope := by
  unfold saidStatement
  split
  · rename_i hrule hchildren
    exact absurd hchildren (hprefixed _ _ (.inl hrule))
  · rename_i hrule hchildren
    exact absurd hchildren (hprefixed _ _ (.inr hrule))
  · rename_i hrule hchildren
    exact absurd hchildren (hbased _ (.inl hrule))
  · rename_i hrule hchildren
    exact absurd hchildren (hbased _ (.inr hrule))
  · rename_i hrule
    exact absurd hrule htriples
  · rfl

/-- A statement is read as what it means, and the scope after it is the one that it means. -/
theorem run_readStatement (place : Path) (node : Node) (hlog : s.IsLogged log)
    (hfresh : ∀ spot : Spot, spot.IsInside place → .spot spot ∉ log)
    (hrun : (readStatement node).run s = .ok ((), s')) :
    ∃ new ts, Step s s' log new (Spot.IsInside place) ts ∧
      ∀ ν, FollowsLog ν (log ++ new) → saidStatement ν s.scope place node = .means s'.scope ts := by
  have hdirective : ∀ (iri : Node) (change : IriScope → Iri → IriScope),
      (readIri iri >>= fun i => modify fun s => { s with scope := change s.scope i }).run s =
        .ok ((), s') →
      ∃ new ts, Step s s' log new (Spot.IsInside place) ts ∧ ∀ ν, FollowsLog ν (log ++ new) →
        (saidIri s.scope iri >>= fun i => pure (change s.scope i)) = .means s'.scope ts := by
    intro iri change hrun
    rw [StateT.run_bind] at hrun
    obtain ⟨⟨i, s₁⟩, hiri, hchange⟩ := bind_eq_ok hrun
    cases hchange
    obtain ⟨new, ts, hstep, hscope, hsaid⟩ :=
      follows_readIri iri s i s₁ log hlog (fun _ h => h.elim) hiri
    refine ⟨new, ts, ⟨⟨hstep.logged.nodup, hstep.logged.count, hstep.logged.labels⟩,
      fun spot hspot => (hstep.owned spot hspot).elim, hstep.triples⟩, fun ν hν => ?_⟩
    have hmeans := hsaid ν hν
    dsimp only at hmeans ⊢
    rw [hmeans, Said.means_bind, hscope]
    simp [Said.after, pure]
  obtain ⟨rule, start, text, children⟩ := node
  unfold readStatement at hrun
  dsimp only [ParseTree.rule, ParseTree.children] at hrun
  split at hrun
  · exact hdirective _ (fun scope i => scope.define _ i.text) hrun
  · exact hdirective _ (fun scope i => scope.define _ i.text) hrun
  · exact hdirective _ (fun scope i => { scope with base := some i.text }) hrun
  · exact hdirective _ (fun scope i => { scope with base := some i.text }) hrun
  · obtain ⟨new, ts, hstep, hscope, hsaid⟩ :=
      readTriples_follows place _ s () s' log hlog hfresh hrun
    refine ⟨new, ts, hstep, fun ν hν => ?_⟩
    have hmeans : saidTriples ν s.scope place children = .means () ts := hsaid ν hν
    show (saidTriples ν s.scope place children >>= fun _ => pure s.scope) = _
    rw [hmeans, Said.means_bind, hscope]
    simp [Said.after, pure]
  · rename_i htriples hnamed hsparqlPrefix hbase hsparqlBase
    cases hrun
    refine ⟨[], [], .refl hlog, fun _ _ => saidStatement_eq_pure ?_ ?_ htriples⟩
    · rintro name iri (hrule | hrule) hchildren
      · exact hnamed name iri hrule hchildren
      · exact hsparqlPrefix name iri hrule hchildren
    · rintro iri (hrule | hrule) hchildren
      · exact hbase iri hrule hchildren
      · exact hsparqlBase iri hrule hchildren

/-- The statements of a document are read one after the other as what they mean. -/
theorem run_readStatements (i : Nat) (nodes : List Node) (hlog : s.IsLogged log)
    (hfresh : ∀ spot : Spot, spot.IsBehind [] i → .spot spot ∉ log)
    (hrun : (readStatements nodes).run s = .ok ((), s')) :
    ∃ new ts, Step s s' log new (Spot.IsBehind [] i) ts ∧
      ∀ ν, FollowsLog ν (log ++ new) → saidStatements ν i s.scope nodes = .means () ts := by
  induction nodes generalizing i s log with
  | nil =>
    cases hrun
    exact ⟨[], [], .refl hlog, fun _ _ => rfl⟩
  | cons node nodes ih =>
    unfold readStatements at hrun
    rw [StateT.run_bind] at hrun
    obtain ⟨⟨_, s₁⟩, hfirst, hrest⟩ := bind_eq_ok hrun
    obtain ⟨new, ts, hstep, hsaid⟩ :=
      run_readStatement [i] node hlog (fun spot h => hfresh spot h.behind) hfirst
    have hfresh' : ∀ spot : Spot, spot.IsBehind [] (i + 1) → .spot spot ∉ log ++ new :=
      fun spot h => hstep.fresh (hfresh spot (h.mono (Nat.le_succ i)))
        fun hinside => hinside.not_behind h
    obtain ⟨more, us, hstep', hsaid'⟩ := ih (i + 1) hstep.logged hfresh' hrest
    refine ⟨new ++ more, ts ++ us, (hstep.mono fun _ h => h.behind).trans
      (hstep'.mono fun _ h => h.mono (Nat.le_succ i)), fun ν hν => ?_⟩
    rw [← List.append_assoc] at hν
    rw [saidStatements, hsaid ν hν.left, Said.means_bind, hsaid' ν hν]
    rfl

/-- The nodes of numbers are different. -/
theorem numbered_inj : Function.Injective numbered := fun _ _ h => numbered_injective h

/-- What is read of the statements of a document is what it means under some naming that gives no
node twice. -/
theorem exists_meaning {base : Option String} {nodes : List Node}
    (hrun : (readStatements (statementsOf nodes)).run (.start base) = .ok ((), s)) :
    ∃ ν, Function.Injective ν ∧ saidDocument ν base nodes = .means () s.triples.toList := by
  obtain ⟨new, ts, hstep, hsaid⟩ := run_readStatements 0 _ (isLogged_start base) nofun hrun
  obtain ⟨number, hnumber, hplace⟩ := exists_numbering hstep.logged.nodup
  refine ⟨fun mark => numbered (number mark), numbered_inj.comp hnumber, ?_⟩
  have hfollows : FollowsLog (fun mark => numbered (number mark)) ([] ++ new) := by
    intro i mark hmark
    obtain ⟨hi, rfl⟩ := List.getElem?_eq_some_iff.mp hmark
    exact congrArg numbered (hplace i hi)
  have htriples : s.triples.toList = ts := hstep.triples
  rw [htriples]
  exact hsaid _ hfollows

/-- The triples of a document are what it means under a naming that gives every label one node,
and every `[]`, `[ … ]` and cell of a list a node of its own. -/
theorem exists_naming_of_read {text : String} {base : Option String} {ts : List Triple}
    (h : read text base = .ok ts) :
    ∃ nodes ν, parseDocument text.toList = .ok nodes ∧ Function.Injective ν ∧
      saidDocument ν base nodes = .means () ts := by
  obtain ⟨nodes, s, hparse, hrun, rfl⟩ := exists_run_of_read h
  obtain ⟨ν, hν, hsaid⟩ := exists_meaning hrun
  exact ⟨nodes, ν, hparse, hν, hsaid⟩

/-- A document with labels that look like the names that the reader gives. -/
def lookalike : String := "<x:a> <x:p> _:b0 , [] , [ <x:q> ( _:b1 [] ) ] . _:b1 <x:p> _:b0 ."

/-- Its triples: the label `b1` does not share its node with the first `[]`. -/
def lookalikeTriples : List Triple :=
  [⟨.iri ⟨"x:a"⟩, ⟨"x:p"⟩, .blank ⟨"b0"⟩⟩, ⟨.iri ⟨"x:a"⟩, ⟨"x:p"⟩, .blank ⟨"b1"⟩⟩,
    ⟨.blank ⟨"b5"⟩, Vocabulary.rdfFirst, .blank ⟨"b4"⟩⟩,
    ⟨.blank ⟨"b5"⟩, Vocabulary.rdfRest, .iri Vocabulary.rdfNil⟩,
    ⟨.blank ⟨"b6"⟩, Vocabulary.rdfFirst, .blank ⟨"b3"⟩⟩,
    ⟨.blank ⟨"b6"⟩, Vocabulary.rdfRest, .blank ⟨"b5"⟩⟩,
    ⟨.blank ⟨"b2"⟩, ⟨"x:q"⟩, .blank ⟨"b6"⟩⟩, ⟨.iri ⟨"x:a"⟩, ⟨"x:p"⟩, .blank ⟨"b2"⟩⟩,
    ⟨.blank ⟨"b3"⟩, ⟨"x:p"⟩, .blank ⟨"b0"⟩⟩]

/-- A document with labels that look like made ones is read with a name of its own for each node. -/
theorem exists_naming_of_read_lookalike :
    read lookalike none = .ok lookalikeTriples ∧
      ∃ nodes ν, parseDocument lookalike.toList = .ok nodes ∧ Function.Injective ν ∧
        saidDocument ν none nodes = .means () lookalikeTriples := by
  have hresult : ((read lookalike none).toOption == some lookalikeTriples) = true := by
    decide +kernel
  have hread : read lookalike none = .ok lookalikeTriples := by
    cases h : read lookalike none with
    | error e =>
      rw [h] at hresult
      cases hresult
    | ok ts =>
      rw [h] at hresult
      exact congrArg Except.ok (Option.some.inj (eq_of_beq hresult))
  exact ⟨hread, exists_naming_of_read hread⟩

end RdfStore.Turtle
