import RdfStore.Proofs.Peg.Places
import RdfStore.Proofs.Syntax.Faults
import RdfStore.Proofs.Turtle.Shapes

/-!
# Why documents are refused

A matched document is refused at a token that has a fault, and for nothing else: what the reader
finds under each node is what the grammar leaves there, so it meets no literal in the place of a
subject, no object without a verb and no node that it does not know. Every part of the reader keeps
the scope of its statement, and every directive leaves a scope whose IRIs are well-formed.
-/

set_option autoImplicit false

namespace RdfStore.Turtle

open RdfStore.Peg RdfStore.Syntax RdfStore.Text

/-- Reading stops at a token that has a fault in the scope, and reports it. -/
def Stops {α : Type} (m : ReaderM α) (s : ReaderState) (tokens : Node → Prop) : Prop :=
  ∃ token error, tokens token ∧ Fault Symbol.terminal? s.scope token error ∧
    m.run s = .error ⟨token.start, .scope error⟩

/-- Reading comes to an answer with a property and keeps the scope, or it stops at a token. -/
def Concludes {α : Type} (m : ReaderM α) (tokens : Node → Prop) (p : α → Prop) : Prop :=
  ∀ s : ReaderState, s.scope.IsValid →
    (∃ a s', m.run s = .ok (a, s') ∧ p a ∧ s'.scope = s.scope) ∨ Stops m s tokens

/-- Some of the nodes hold a token. -/
def HoldAny (nodes : List Node) (token : Node) : Prop := ∃ node ∈ nodes, Holds node token

variable {α β : Type} {m : ReaderM α} {p q : α → Prop} {tokens tokens' : Node → Prop}
  {node : Node} {s : ReaderState}

/-! ## Steps -/

/-- A value without a step concludes with what holds of it. -/
theorem concludes_pure {a : α} (h : p a) : Concludes (pure a) tokens p :=
  fun s _ => .inl ⟨a, s, rfl, h, rfl⟩

/-- What stops at some tokens stops at one of more. -/
theorem Stops.mono (h : Stops m s tokens) (hle : ∀ token, tokens token → tokens' token) :
    Stops m s tokens' := by
  obtain ⟨token, error, htoken, hfault⟩ := h
  exact ⟨token, error, hle token htoken, hfault⟩

/-- What comes behind a part that stops is not read. -/
theorem Stops.bind (h : Stops m s tokens) (f : α → ReaderM β) : Stops (m >>= f) s tokens := by
  obtain ⟨token, error, htoken, hfault, hrun⟩ := h
  refine ⟨token, error, htoken, hfault, ?_⟩
  rw [StateT.run_bind, hrun]
  rfl

/-- What concludes may stop at more tokens and give less. -/
theorem Concludes.mono (h : Concludes m tokens p) (hle : ∀ token, tokens token → tokens' token)
    (hp : ∀ a, p a → q a) : Concludes m tokens' q := by
  intro s hs
  rcases h s hs with ⟨a, s', hrun, ha, hscope⟩ | hstops
  · exact .inl ⟨a, s', hrun, hp a ha, hscope⟩
  · exact .inr (hstops.mono hle)

/-- A step that concludes goes on with what it gave. -/
theorem Concludes.bind {f : α → ReaderM β} {q : β → Prop} (h : Concludes m tokens p)
    (hf : ∀ a, p a → Concludes (f a) tokens q) : Concludes (m >>= f) tokens q := by
  intro s hs
  rcases h s hs with ⟨a, s₁, hrun, ha, hscope⟩ | hstops
  · rcases hf a ha s₁ (hscope ▸ hs) with
      ⟨b, s', hrun', hb, hscope'⟩ | ⟨token, error, htoken, hfault, hrun'⟩
    · refine .inl ⟨b, s', ?_, hb, hscope'.trans hscope⟩
      rw [StateT.run_bind, hrun]
      exact hrun'
    · refine .inr ⟨token, error, htoken, hscope ▸ hfault, ?_⟩
      rw [StateT.run_bind, hrun]
      exact hrun'
  · exact .inr (hstops.bind f)

/-- Changing the value leaves the conclusion. -/
theorem Concludes.map {f : α → β} {q : β → Prop} (h : Concludes m tokens p)
    (hf : ∀ a, p a → q (f a)) : Concludes (f <$> m) tokens q := by
  rw [← bind_pure_comp]
  exact h.bind fun a ha => concludes_pure (hf a ha)

/-- What stands inside the children of a node stands inside the node. -/
theorem Concludes.inside {rule : Symbol} {start : Nat} {text : List Char} {children : List Node}
    (h : Concludes m (HoldAny children) p) :
    Concludes m (Holds (.node rule start text children)) p := by
  refine h.mono (fun token htoken => ?_) fun _ ha => ha
  obtain ⟨child, hchild, hholds⟩ := htoken
  exact hholds.of_child hchild

/-- Changes that leave the scope alone always succeed. -/
theorem concludes_modify {f : ReaderState → ReaderState} (h : ∀ s, (f s).scope = s.scope) :
    Concludes (modify f) tokens fun _ => True :=
  fun s _ => .inl ⟨(), f s, rfl, trivial, h s⟩

/-- What is taken from tokens in the scope is explained by them. -/
theorem concludes_take {r : IriScope → Except TokenFailure α} {nodes : List Node}
    (h : ∀ scope, scope.IsValid → IsExplained Symbol.terminal? scope nodes (r scope))
    (hp : ∀ scope a, r scope = .ok a → p a) :
    Concludes (do let scope := (← get).scope; take (r scope)) (· ∈ nodes) p := by
  intro s hs
  rcases h s.scope hs with ⟨a, ha⟩ | ⟨token, htoken, error, herror, hfault⟩
  · refine .inl ⟨a, s, ?_, hp _ a ha, rfl⟩
    show (take (r s.scope)).run s = _
    rw [ha]
    rfl
  · refine .inr ⟨token, error, htoken, hfault, ?_⟩
    show (take (r s.scope)).run s = _
    rw [herror]
    rfl

/-- Reading an address gives one or stops at a token of its node. -/
theorem concludes_readIri (hrule : node.rule ∈ Symbol.iri.calls) (hgrown : IsGrown grammar node) :
    Concludes (readIri node) (Holds node) Iri.IsWellFormed := by
  have htake := concludes_take (r := fun scope => scope.iri Symbol.terminal? node)
    (fun scope hscope => iri_isExplained hasTokens (fun _ => rfl) hscope hrule hgrown)
    fun scope i hi => IriScope.isWellFormed_of_iri hi
  refine htake.mono (fun token htoken => ?_) fun _ hi => hi
  rw [List.mem_singleton.mp htoken]
  exact holds_self node

/-- Reading a literal gives one or stops at a token of its node. -/
theorem concludes_readLiteral {start : Nat} {text : List Char} {children : List Node}
    (hformed : IsFormed grammar (.node .literal start text children))
    (hgrown : IsGrown grammar (.node .literal start text children)) :
    Concludes (readLiteral (.node .literal start text children))
      (Holds (.node .literal start text children)) fun _ => True := by
  obtain ⟨string, suffixes, rfl, hstring, hsuffixes⟩ := children_of_literal hformed
  simp only [suffixRules, List.mem_cons] at hsuffixes
  refine (concludes_take (r := fun scope => scope.literal Symbol.terminal? _)
    (fun scope hscope => literal_isExplained hasTokens (fun _ => rfl) hscope rfl hstring hsuffixes
      hgrown.children) fun _ _ _ => trivial).mono ?_ fun _ h => h
  intro token htoken
  exact (holds_self token).of_child htoken

/-- A fresh blank node is given without stopping. -/
theorem concludes_freshBlank : Concludes freshBlank tokens fun _ => True :=
  fun _ _ => .inl ⟨_, _, rfl, trivial, rfl⟩

/-- The blank node of a label is given without stopping. -/
theorem concludes_labelledBlank (label : String) :
    Concludes (labelledBlank label) tokens fun _ => True := by
  intro s _
  unfold labelledBlank
  rw [StateT.run_bind, StateT.run_get, pure_bind]
  dsimp only
  split
  · exact .inl ⟨_, s, rfl, trivial, rfl⟩
  · exact .inl ⟨_, _, rfl, trivial, rfl⟩

/-- A triple is written down without stopping. -/
theorem concludes_emit (subject : Subject) (predicate : Iri) (object : Term) :
    Concludes (emit subject predicate object) tokens fun _ => True :=
  concludes_modify fun _ => rfl

/-- A list starts at a cell or at the node that ends it. -/
theorem concludes_linkCells {items : List Term} {tail : Term} (htail : tail.toSubject?.isSome) :
    Concludes (linkCells items tail) tokens fun term => term.toSubject?.isSome := by
  induction items generalizing tail with
  | nil => exact concludes_pure htail
  | cons item before ih =>
    refine concludes_freshBlank.bind fun cell _ => ?_
    refine (concludes_emit _ _ _).bind fun _ _ => ?_
    refine (concludes_emit _ _ _).bind fun _ _ => ?_
    exact ih rfl

/-! ## Nodes -/

/-- The nodes are formed and have grown by their rules, which are among those given. -/
def AreLeftBy (rules : List Symbol) (nodes : List Node) : Prop :=
  ∀ node ∈ nodes, IsFormed grammar node ∧ IsGrown grammar node ∧ node.rule ∈ rules

/-- Pairs of verbs and objects, or the objects of a verb that has been read. -/
def AwaitsObjects (verb : Option Iri) (rules : List Symbol) : Prop :=
  ArePairs Symbol.verb.calls .objectList rules ∨
    verb.isSome ∧ ∃ rest, rules = .objectList :: rest ∧
      ArePairs Symbol.verb.calls .objectList rest

variable {rule : Symbol} {rules : List Symbol} {nodes : List Node} {verb : Option Iri}

/-- Objects come behind a verb. -/
theorem AwaitsObjects.objects (h : AwaitsObjects verb (.objectList :: rules)) :
    verb.isSome ∧ ArePairs Symbol.verb.calls .objectList rules := by
  rcases h with hpairs | ⟨hverb, rest, hrules, hrest⟩
  · cases hpairs with
    | cons hfirst _ => exact absurd hfirst (by decide)
  · cases hrules
    exact ⟨hverb, hrest⟩

/-- What comes where no objects do is a verb, and objects come behind it. -/
theorem AwaitsObjects.isVerb (h : AwaitsObjects verb (rule :: rules)) (hrule : rule ≠ .objectList) :
    rule ∈ Symbol.verb.calls ∧ ∃ rest, rules = .objectList :: rest ∧
      ArePairs Symbol.verb.calls .objectList rest := by
  rcases h with hpairs | ⟨-, rest, hrules, -⟩
  · cases hpairs with
    | cons hfirst hrest => exact ⟨hfirst, _, rfl, hrest⟩
  · cases hrules
    exact absurd rfl hrule

/-- A verb is an address or the keyword for the type. -/
theorem mem_verb (h : rule ∈ Symbol.verb.calls) :
    rule ∈ Symbol.iri.calls ∨ rule = .typeKeyword := by
  have hcalls : ∀ r ∈ Symbol.verb.calls, r ∈ Symbol.iri.calls ∨ r = .typeKeyword := by decide
  exact hcalls rule h

/-- The reader knows every rule in the place of an object. -/
theorem object_calls : Symbol.object.calls =
    [.terminal .iriRef, .terminal .prefixedName, .terminal .prefixedSpace,
      .terminal .blankNodeLabel, .terminal .anonymous, .collection, .blankNodePropertyList,
      .literal, .terminal .double, .terminal .decimal, .terminal .integer, .boolean] := rfl

/-- The children of a formed node are left by the rules that they have. -/
theorem areLeftBy_children (hformed : IsFormed grammar node) (hgrown : IsGrown grammar node)
    (h : ∀ child ∈ node.children, child.rule ∈ rules) : AreLeftBy rules node.children :=
  fun child hchild => ⟨hformed.children child hchild, hgrown.children child hchild, h child hchild⟩

/-- The nodes behind the first are left by the same rules. -/
theorem AreLeftBy.tail (h : AreLeftBy rules (node :: nodes)) : AreLeftBy rules nodes :=
  fun n hn => h n (List.mem_cons_of_mem node hn)

/-- What the first node holds some node holds. -/
theorem holdAny_head {token : Node} (h : Holds node token) : HoldAny (node :: nodes) token :=
  ⟨node, List.mem_cons_self, h⟩

/-- What a later node holds some node holds. -/
theorem holdAny_tail {token : Node} (h : HoldAny nodes token) : HoldAny (node :: nodes) token := by
  obtain ⟨n, hn, hholds⟩ := h
  exact ⟨n, List.mem_cons_of_mem node hn, hholds⟩

/-- What concludes at tokens of the first node does so at tokens of them all. -/
theorem Concludes.head (h : Concludes m (Holds node) p) : Concludes m (HoldAny (node :: nodes)) p :=
  h.mono (fun _ => holdAny_head) fun _ ha => ha

/-- What concludes at tokens of the later nodes does so at tokens of them all. -/
theorem Concludes.tail (h : Concludes m (HoldAny nodes) p) : Concludes m (HoldAny (node :: nodes)) p :=
  h.mono (fun _ => holdAny_tail) fun _ ha => ha

mutual

/-- A node in the place of an object denotes a term, which can be a subject if it is no literal. -/
theorem readTerm_concludes : ∀ node : Node, IsFormed grammar node → IsGrown grammar node →
    node.rule ∈ Symbol.object.calls → Concludes (readTerm node) (Holds node) fun term =>
      node.rule ∉ Symbol.anyLiteral.calls → term.toSubject?.isSome
  | .node rule start text children, hformed, hgrown, hrule => by
    have hterms := readTerms_concludes children
    have hproperties := fun subject => readProperties_concludes subject children
    have hiri : rule ∈ Symbol.iri.calls → Concludes (readIri (.node rule start text children))
        (Holds (.node rule start text children)) Iri.IsWellFormed :=
      fun h => concludes_readIri h hgrown
    unfold readTerm
    split
    · exact (hiri (by decide)).map fun _ _ _ => rfl
    · exact (hiri (by decide)).map fun _ _ _ => rfl
    · exact (hiri (by decide)).map fun _ _ _ => rfl
    · exact (concludes_labelledBlank _).map fun _ _ _ => rfl
    · exact concludes_freshBlank.map fun _ _ _ => rfl
    · refine concludes_freshBlank.bind fun blank _ => ?_
      obtain ⟨list, hchildren, hlist⟩ := children_of_propertyList hformed
      have hleft : AreLeftBy [.predicateObjectList] children := by
        refine areLeftBy_children hformed hgrown fun child hchild => ?_
        rw [ParseTree.children, hchildren, List.mem_singleton] at hchild
        exact hchild ▸ List.mem_singleton.mpr hlist
      refine ((hproperties _ hleft).inside).bind fun _ _ => ?_
      exact concludes_pure fun _ => rfl
    · have hleft := areLeftBy_children hformed hgrown (children_of_terms (.inl rfl) hformed)
      refine ((hterms hleft).inside).bind fun items _ => ?_
      exact (concludes_linkCells rfl).mono (fun _ h => h) fun _ hterm _ => hterm
    · exact (concludes_readLiteral hformed hgrown).map fun _ _ h =>
        absurd (show Symbol.literal ∈ Symbol.anyLiteral.calls by decide) h
    · exact concludes_pure fun h =>
        absurd (show Symbol.terminal .integer ∈ Symbol.anyLiteral.calls by decide) h
    · exact concludes_pure fun h =>
        absurd (show Symbol.terminal .decimal ∈ Symbol.anyLiteral.calls by decide) h
    · exact concludes_pure fun h =>
        absurd (show Symbol.terminal .double ∈ Symbol.anyLiteral.calls by decide) h
    · exact concludes_pure fun h =>
        absurd (show Symbol.boolean ∈ Symbol.anyLiteral.calls by decide) h
    · -- no node is unknown: every rule that the grammar allows in this place has had its case
      rename_i hiriRef hname hspace hlabel hanonymous hlist hcollection hliteral hinteger hdecimal
        hdouble hboolean
      change rule ∈ Symbol.object.calls at hrule
      rw [object_calls] at hrule
      simp only [List.mem_cons, List.not_mem_nil, or_false] at hrule
      rcases hrule with h | h | h | h | h | h | h | h | h | h | h | h
      exacts [(hiriRef h).elim, (hname h).elim, (hspace h).elim, (hlabel h).elim,
        (hanonymous h).elim, (hcollection h).elim, (hlist h).elim, (hliteral h).elim,
        (hdouble h).elim, (hdecimal h).elim, (hinteger h).elim, (hboolean h).elim]

/-- Reading terms in a row concludes at a token of the nodes. -/
theorem readTerms_concludes : ∀ nodes : List Node, AreLeftBy Symbol.object.calls nodes →
    Concludes (readTerms nodes) (HoldAny nodes) fun _ => True
  | [], _ => concludes_pure trivial
  | node :: nodes, hleft => by
    obtain ⟨hformed, hgrown, hrule⟩ := hleft node List.mem_cons_self
    have hfirst := readTerm_concludes node hformed hgrown hrule
    have hmore := readTerms_concludes nodes hleft.tail
    exact hfirst.head.bind fun _ _ => hmore.tail.bind fun _ _ => concludes_pure trivial

/-- Reading a list of properties concludes at a token of the nodes. -/
theorem readProperties_concludes (subject : Subject) : ∀ nodes : List Node,
    AreLeftBy [.predicateObjectList] nodes →
      Concludes (readProperties subject nodes) (HoldAny nodes) fun _ => True
  | [], _ => concludes_pure trivial
  | .node rule start text items :: rest, hleft => by
    obtain ⟨hformed, hgrown, hrule⟩ := hleft _ List.mem_cons_self
    obtain rfl : rule = .predicateObjectList := List.mem_singleton.mp hrule
    have hrules := hformed.mem_calls rfl fun r _ => manner_ne_silent r
    have hitems := areLeftBy_children hformed hgrown hrules
    have hverbs := readVerbObjects_concludes subject none items hitems
      (.inl (arePairs_of_formed hformed))
    exact (hverbs.inside).head

/-- Reading verbs with their objects concludes at a token of the nodes. -/
theorem readVerbObjects_concludes (subject : Subject) (verb : Option Iri) : ∀ nodes : List Node,
    AreLeftBy (grammar.production .predicateObjectList).body.calls nodes →
      AwaitsObjects verb (nodes.map ParseTree.rule) →
        Concludes (readVerbObjects subject verb nodes) (HoldAny nodes) fun _ => True
  | [], _, _ => concludes_pure trivial
  | .node rule start text children :: rest, hleft, hawaits => by
    obtain ⟨hformed, hgrown, hrule⟩ := hleft _ List.mem_cons_self
    have hobjects := fun predicate => readObjects_concludes subject predicate children
    have hmore := fun verb => readVerbObjects_concludes subject verb rest hleft.tail
    unfold readVerbObjects
    split
    · obtain ⟨hverb, hrest⟩ := hawaits.objects
      obtain ⟨predicate, rfl⟩ := Option.isSome_iff_exists.mp hverb
      have hterms := areLeftBy_children hformed hgrown (children_of_terms (.inr rfl) hformed)
      exact (hobjects predicate hterms).inside.head.bind fun _ _ => (hmore _ (.inl hrest)).tail
    · obtain ⟨-, hrest⟩ := hawaits.isVerb (by simp [ParseTree.rule])
      exact (hmore _ (.inr ⟨rfl, hrest⟩)).tail
    · rename_i hlist hkeyword
      obtain ⟨hverb, hrest⟩ := hawaits.isVerb hlist
      have hiri : rule ∈ Symbol.iri.calls := (mem_verb hverb).resolve_right hkeyword
      have hread := concludes_readIri (show (ParseTree.node rule start text children).rule ∈ _ from hiri)
        hgrown
      refine hread.head.bind fun predicate _ => ?_
      exact (hmore _ (.inr ⟨rfl, hrest⟩)).tail

/-- Reading objects in a row concludes at a token of the nodes. -/
theorem readObjects_concludes (subject : Subject) (predicate : Iri) : ∀ nodes : List Node,
    AreLeftBy Symbol.object.calls nodes →
      Concludes (readObjects subject predicate nodes) (HoldAny nodes) fun _ => True
  | [], _ => concludes_pure trivial
  | node :: nodes, hleft => by
    obtain ⟨hformed, hgrown, hrule⟩ := hleft node List.mem_cons_self
    have hfirst := readTerm_concludes node hformed hgrown hrule
    have hmore := readObjects_concludes subject predicate nodes hleft.tail
    refine hfirst.head.bind fun object _ => ?_
    exact (concludes_emit _ _ _).bind fun _ _ => hmore.tail

end

/-! ## Statements -/

/-- Reading a subject concludes at a token of its node. -/
theorem readSubject_concludes (hformed : IsFormed grammar node) (hgrown : IsGrown grammar node)
    (hrule : node.rule = .blankNodePropertyList ∨ node.rule ∈ Symbol.subject.calls) :
    Concludes (readSubject node) (Holds node) fun _ => True := by
  have hcalls : ∀ r, r = .blankNodePropertyList ∨ r ∈ Symbol.subject.calls →
      r ∈ Symbol.object.calls ∧ r ∉ Symbol.anyLiteral.calls := by
    have hsubject : ∀ r ∈ Symbol.blankNodePropertyList :: Symbol.subject.calls,
        r ∈ Symbol.object.calls ∧ r ∉ Symbol.anyLiteral.calls := by decide
    exact fun r hr => hsubject r (List.mem_cons.mpr hr)
  obtain ⟨hobject, hliteral⟩ := hcalls _ hrule
  refine (readTerm_concludes node hformed hgrown hobject).bind fun term hterm => ?_
  obtain ⟨subject, hsubject⟩ := Option.isSome_iff_exists.mp (hterm hliteral)
  rw [hsubject]
  exact concludes_pure trivial

/-- Reading the triples of a statement concludes at a token of its nodes. -/
theorem readTriples_concludes {start : Nat} {text : List Char} {children : List Node}
    (hformed : IsFormed grammar (.node .triples start text children))
    (hgrown : IsGrown grammar (.node .triples start text children)) :
    Concludes (readTriples children) (HoldAny children) fun _ => True := by
  have hleft : ∀ child ∈ children, IsFormed grammar child ∧ IsGrown grammar child :=
    fun child hchild => ⟨hformed.children child hchild, hgrown.children child hchild⟩
  obtain ⟨first, rest, rfl, hfirst, hrest⟩ := children_of_triples hformed
  obtain ⟨hfirstFormed, hfirstGrown⟩ := hleft first List.mem_cons_self
  have hlists : AreLeftBy [.predicateObjectList] rest := by
    intro child hchild
    obtain ⟨hchildFormed, hchildGrown⟩ := hleft child (List.mem_cons_of_mem first hchild)
    refine ⟨hchildFormed, hchildGrown, ?_⟩
    rcases hrest with rfl | ⟨list, rfl, hlist⟩
    · exact absurd hchild List.not_mem_nil
    · rw [List.mem_singleton.mp hchild, hlist]
      exact List.mem_cons_self
  refine (readSubject_concludes hfirstFormed hfirstGrown hfirst).head.bind fun subject _ => ?_
  exact (readProperties_concludes subject rest hlists).tail

/-- A prefix with a well-formed address keeps the scope valid. -/
theorem isValid_define {scope : IriScope} {i : Iri} (h : scope.IsValid) (hi : i.IsWellFormed)
    (name : String) : (scope.define name i.text).IsValid where
  base := h.base
  prefixes name' iri hlookup := by
    rw [IriScope.define, List.lookup_cons] at hlookup
    split at hlookup
    · cases hlookup
      exact hi
    · exact h.prefixes name' iri hlookup

/-- A base that is a well-formed address keeps the scope valid. -/
theorem isValid_base {scope : IriScope} {i : Iri} (h : scope.IsValid) (hi : i.IsWellFormed) :
    IriScope.IsValid { scope with base := some i.text } where
  base := by
    rintro _ ⟨⟩
    exact hi
  prefixes := h.prefixes

/-- Reading goes on with a valid scope, or it stops at a token. -/
def Advances (m : ReaderM Unit) (tokens : Node → Prop) : Prop :=
  ∀ s : ReaderState, s.scope.IsValid →
    (∃ s', m.run s = .ok ((), s') ∧ s'.scope.IsValid) ∨ Stops m s tokens

/-- A walk that concludes goes on to the next statement or stops. -/
theorem Concludes.advances {m : ReaderM Unit} {p : Unit → Prop} (h : Concludes m tokens p) :
    Advances m tokens := by
  intro s hs
  rcases h s hs with ⟨⟨⟩, s', hrun, -, hscope⟩ | hstops
  · exact .inl ⟨s', hrun, hscope ▸ hs⟩
  · exact .inr hstops

/-- A change of the scope comes last in a directive. -/
theorem Concludes.change {f : α → ReaderState → ReaderState} (h : Concludes m tokens p)
    (hf : ∀ a s, p a → s.scope.IsValid → (f a s).scope.IsValid) :
    Advances (m >>= fun a => modify (f a)) tokens := by
  intro s hs
  rcases h s hs with ⟨a, s', hrun, ha, hscope⟩ | hstops
  · refine .inl ⟨f a s', ?_, hf a s' ha (hscope ▸ hs)⟩
    rw [StateT.run_bind, hrun]
    rfl
  · exact .inr (hstops.bind _)

/-- A statement is read to its end, or reading stops at one of its tokens. -/
theorem readStatement_advances (hformed : IsFormed grammar node) (hgrown : IsGrown grammar node) :
    Advances (readStatement node) (Holds node) := by
  obtain ⟨rule, start, text, children⟩ := node
  obtain ⟨hnamed, hbase⟩ := children_of_directive hformed
  have hiri : ∀ iri, iri ∈ children → iri.rule = .terminal .iriRef →
      Concludes (readIri iri) (Holds (.node rule start text children)) Iri.IsWellFormed := by
    intro iri hchild hrule
    have hread := concludes_readIri (by rw [hrule]; decide) (hgrown.children iri hchild)
    exact hread.mono (fun _ hholds => hholds.of_child hchild) fun _ h => h
  have hdefine : ∀ name iri, children = [name, iri] →
      rule = .prefixDirective ∨ rule = .sparqlPrefix →
        Advances (readIri iri >>= fun iri => modify fun s =>
          { s with scope := s.scope.define (definedPrefix name.text) iri.text })
            (Holds (.node rule start text children)) := by
    rintro name iri rfl hrule
    obtain ⟨_, _, hchildren, -, hlast⟩ := hnamed hrule
    cases hchildren
    exact (hiri iri (by simp) hlast).change fun i s hi hs => isValid_define hs hi _
  have hrebase : ∀ iri, children = [iri] → rule = .baseDirective ∨ rule = .sparqlBase →
      Advances (readIri iri >>= fun iri => modify fun s =>
        { s with scope := { s.scope with base := some iri.text } })
          (Holds (.node rule start text children)) := by
    rintro iri rfl hrule
    obtain ⟨_, hchildren, hlast⟩ := hbase hrule
    cases hchildren
    exact (hiri iri (by simp) hlast).change fun i s hi hs => isValid_base hs hi
  unfold readStatement
  split
  · rename_i name iri hrule hchildren
    exact hdefine name iri hchildren (.inl hrule)
  · rename_i name iri hrule hchildren
    exact hdefine name iri hchildren (.inr hrule)
  · rename_i iri hrule hchildren
    exact hrebase iri hchildren (.inl hrule)
  · rename_i iri hrule hchildren
    exact hrebase iri hchildren (.inr hrule)
  · rename_i hrule
    obtain rfl : rule = .triples := hrule
    exact (readTriples_concludes hformed hgrown).inside.advances
  · exact (concludes_pure (p := fun _ => True) trivial).advances

/-- Statements are read to the last, or one of them stops the reader in the state behind those
before it. -/
theorem readStatements_cases {nodes : List Node}
    (hnodes : ∀ node ∈ nodes, IsFormed grammar node ∧ IsGrown grammar node)
    (hs : s.scope.IsValid) :
    (∃ s', (readStatements nodes).run s = .ok ((), s')) ∨
      ∃ before node after s' token error, nodes = before ++ node :: after ∧
        (readStatements before).run s = .ok ((), s') ∧ Holds node token ∧
        Fault Symbol.terminal? s'.scope token error ∧
        (readStatements nodes).run s = .error ⟨token.start, .scope error⟩ := by
  induction nodes generalizing s with
  | nil => exact .inl ⟨s, rfl⟩
  | cons node nodes ih =>
    obtain ⟨hformed, hgrown⟩ := hnodes node List.mem_cons_self
    have hrun : ∀ others, (readStatements (node :: others)).run s =
        (readStatement node).run s >>= fun a => (readStatements others).run a.2 := fun _ => rfl
    rcases readStatement_advances hformed hgrown s hs with
      ⟨s₁, hfirst, hs₁⟩ | ⟨token, error, htoken, hfault, hfirst⟩
    · rcases ih (fun n hn => hnodes n (List.mem_cons_of_mem node hn)) hs₁ with
        ⟨s', hmore⟩ | ⟨before, last, after, s', token, error, rfl, hbefore, hrest⟩
      · exact .inl ⟨s', by rw [hrun, hfirst]; exact hmore⟩
      · refine .inr ⟨node :: before, last, after, s', token, error, rfl, ?_, hrest.1, hrest.2.1, ?_⟩
        · rw [hrun, hfirst]
          exact hbefore
        · rw [hrun, hfirst]
          exact hrest.2.2
    · refine .inr ⟨[], node, nodes, s, token, error, rfl, rfl, htoken, hfault, ?_⟩
      rw [hrun, hfirst]
      rfl

/-! ## Documents -/

/-- The scope is valid when reading starts. -/
theorem isValid_start {base : Option String} (hbase : ∀ b, base = some b → isBase b = true) :
    (ReaderState.start base).scope.IsValid where
  base b hb := by
    obtain ⟨habsolute, htext⟩ := Bool.and_eq_true_iff.mp (hbase b hb)
    exact Iri.of_eq htext habsolute
  prefixes _ _ hlookup := nomatch hlookup

/-- With an absolute base, what is read of a matched document is what its statements state. -/
theorem read_eq {text : String} {base : Option String} {nodes : List Node}
    (hbase : ∀ b, base = some b → isBase b = true)
    (hparse : parseDocument text.toList = .ok nodes) :
    read text base = match (readStatements (statementsOf nodes)).run (.start base) with
      | .ok (_, s) => .ok s.triples.toList
      | .error f => .error (.refused (Position.ofIndex text.toList f.index) f.problem) := by
  have hfilter : base.filter (fun b => !isBase b) = none := by
    cases base with
    | none => rfl
    | some b => rw [Option.filter, hbase b rfl]; rfl
  unfold read readDocument
  dsimp only
  rw [hparse]
  dsimp only
  rw [hfilter]
  unfold statementsOf
  dsimp only
  cases (readStatements (nodes.flatMap ParseTree.children)).run (.start base) with
  | ok result => rfl
  | error f => rfl

/-- A matched document with an absolute base or none is refused only at a token of a statement that
has a fault in the scope behind the statements before it. What is read passes the tests of IRIs,
labels and language tags. -/
theorem read_ok_or_fault {text : String} {base : Option String} {nodes : List Node}
    (hbase : ∀ b, base = some b → isBase b = true)
    (hparse : parseDocument text.toList = .ok nodes) :
    (∃ ts, read text base = .ok ts ∧ ∀ t ∈ ts, t.PassesTests) ∨
      ∃ before statement after s token error, statementsOf nodes = before ++ statement :: after ∧
        (readStatements before).run (.start base) = .ok ((), s) ∧ Holds statement token ∧
        Fault Symbol.terminal? s.scope token error ∧
        read text base =
          .error (.refused (Position.ofIndex text.toList token.start) (.scope error)) := by
  have hread := read_eq hbase hparse
  have hnodes : ∀ node ∈ statementsOf nodes, IsFormed grammar node ∧ IsGrown grammar node :=
    fun node hnode => (statements_of_parse hparse node hnode).imp_right And.left
  rcases readStatements_cases hnodes (isValid_start hbase) with
    ⟨s, hrun⟩ | ⟨before, node, after, s, token, error, hsplit, hbefore, hholds, hfault, hrun⟩
  · rw [hrun] at hread
    exact .inl ⟨_, hread, fun t ht => (isWellFormed_of_read hread t ht).passesTests⟩
  · rw [hrun] at hread
    exact .inr ⟨before, node, after, s, token, error, hsplit, hbefore, hholds, hfault, hread⟩

/-- A document whose directives set a base and a prefix, with an escape of no character last. -/
def surrogate : String :=
  "@base <c> . @prefix : <#> . :s\\,1 a <d>, ( 'x'@en-GB [ :p \"1\"^^:t ] ) . [] : <\\uD800> ."

/-- A document with the number of a surrogate is matched, and reading stops at the literal that
holds it. -/
theorem read_ok_or_fault_surrogate : isBase "http://a/b" = true ∧ ∃ nodes,
    parseDocument surrogate.toList = .ok nodes ∧
      ∃ before statement after s token error, statementsOf nodes = before ++ statement :: after ∧
        (readStatements before).run (.start (some "http://a/b")) = .ok ((), s) ∧
        Holds statement token ∧ Fault Symbol.terminal? s.scope token error ∧
        read surrogate (some "http://a/b") =
          .error (.refused (Position.ofIndex surrogate.toList token.start) (.scope error)) := by
  have hbase : isBase "http://a/b" = true := by decide +kernel
  have hmatched : (parseDocument surrogate.toList).toBool = true := by decide +kernel
  have hrefused : (read surrogate (some "http://a/b")).toBool = false := by decide +kernel
  cases hparse : parseDocument surrogate.toList with
  | error index =>
    rw [hparse] at hmatched
    cases hmatched
  | ok nodes =>
    refine ⟨hbase, nodes, rfl, ?_⟩
    have hbases : ∀ b, some "http://a/b" = some b → isBase b = true := by
      rintro _ ⟨⟩
      exact hbase
    rcases read_ok_or_fault hbases hparse with ⟨ts, hread, -⟩ | hstops
    · rw [hread] at hrefused
      cases hrefused
    · exact hstops

end RdfStore.Turtle
