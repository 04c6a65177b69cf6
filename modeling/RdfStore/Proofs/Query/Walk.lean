import RdfStore.Proofs.Query.Parts
import RdfStore.Proofs.Query.Placement
import RdfStore.Proofs.Query.Precedence

/-!
# What the walk over a query gives

A criterion says what is asked of expressions, of elements after those before them, of data, of
templates and of columns, each on its own. If what the walk makes of one node meets it, then what
it makes of a whole query does, at every depth.
-/

set_option autoImplicit false

namespace RdfStore.Query

open RdfStore.Peg RdfStore.Syntax

/-! ## Criteria -/

/-- What is asked of the parts of a query, and of the nodes that they are read from. -/
structure Criterion where
  node : Node → Prop
  expr : Expr → Prop
  /-- Of an element that comes after others in its group. -/
  element : List Element → Element → Prop
  data : DataBlock → Prop
  template : List Pattern → Prop
  /-- Of a column over the variables in scope. -/
  column : List String → SelectItem → Prop

namespace Part

variable {c : Criterion} {p q : Part}

/-- A part meets a criterion on its own. -/
def Meets (c : Criterion) : Part → Prop
  | .group g =>
    ∀ before element after, g.elements = before ++ element :: after → c.element before element
  | .expr e => c.expr e

/-- A part meets a criterion, and so does everything inside. -/
def MeetsDeeply (c : Criterion) (p : Part) : Prop := ∀ q, p.Within q → q.Meets c

/-- A part meets a criterion deeply if it meets it and everything inside does so deeply. -/
theorem meetsDeeply_of (h : p.Meets c) (hinside : ∀ q ∈ p.inside, q.MeetsDeeply c) :
    p.MeetsDeeply c := by
  intro r hr
  rcases hr.cases_inside with rfl | ⟨q, hq, hwithin⟩
  · exact h
  · exact hinside q hq r hwithin

/-- What is inside a part that meets a criterion deeply does so too. -/
theorem MeetsDeeply.inside (h : p.MeetsDeeply c) (hq : q ∈ p.inside) : q.MeetsDeeply c :=
  fun r hr => h r (hr.of_inside hq)

/-- The empty group meets every criterion. -/
theorem meetsDeeply_empty : (Part.group .empty).MeetsDeeply c := by
  apply meetsDeeply_of
  · intro before element after h
    simp [Group.empty, Group.elements] at h
  · intro q hq
    simp [Part.inside, Group.empty, Group.elements] at hq

/-- An element is added at the end of a group. -/
theorem MeetsDeeply.append {done : List Element} {element : Element}
    (h : (Part.group (.mk done)).MeetsDeeply c) (helement : c.element done element)
    (hparts : ∀ p ∈ element.parts, p.MeetsDeeply c) :
    (Part.group (.mk (done ++ [element]))).MeetsDeeply c := by
  apply meetsDeeply_of
  · intro before other after hsplit
    have hdone : (Part.group (.mk done)).Meets c := h _ .self
    rcases List.eq_nil_or_concat after with rfl | ⟨front, last, rfl⟩
    · obtain ⟨hbefore, hother⟩ := List.append_inj' hsplit rfl
      cases hother
      exact hbefore ▸ helement
    · have hfront : done ++ [element] = (before ++ other :: front) ++ [last] := by
        rw [List.append_assoc, List.cons_append, ← @List.concat_eq_append _ front]
        exact hsplit
      exact hdone before other front (List.append_inj' hfront rfl).1
  · intro q hq
    have hmem : q ∈ done.flatMap Element.parts ∨ q ∈ element.parts := by
      simpa [Part.inside, Group.elements] using hq
    rcases hmem with hmem | hmem
    · exact h.inside hmem
    · exact hparts q hmem

/-- An expression with nothing inside meets a criterion deeply if it meets it. -/
theorem meetsDeeply_leaf {e : Expr} (h : c.expr e) (hinside : (Part.expr e).inside = []) :
    (Part.expr e).MeetsDeeply c :=
  meetsDeeply_of h fun _ hq => absurd (hinside ▸ hq) List.not_mem_nil

end Part

/-- What the walk makes of single nodes meets a criterion. -/
structure Criterion.IsRead (c : Criterion) : Prop where
  children : ∀ node, c.node node → ∀ child ∈ node.children, c.node child
  var : ∀ name, c.expr (.var name)
  const : ∀ scope node, c.node node → Yields (readTerm scope node) fun t => c.expr (.const t)
  iri : ∀ i : Iri, i.IsWellFormed → c.expr (.const (.iri i))
  unary : ∀ op operand, c.expr (.unary op operand)
  binary : ∀ op left right, c.expr (.binary op left right)
  member : ∀ negated operand items, c.expr (.member negated operand items)
  exists_ : ∀ negated g, c.expr (.exists negated g)
  call : ∀ function args, function.takes args.length = true →
    (function = .bound → ∃ name, args = [.var name]) → c.expr (.call function args)
  triples : ∀ scope nodes, (∀ node ∈ nodes, c.node node) →
    Yields (readBlocks scope false nodes) fun patterns =>
      ∀ before, c.element before (.triples patterns)
  /-- One branch is a group, more of them are a union. -/
  union : ∀ start text children, c.node (.node .unionPattern start text children) →
    ∀ before branches, branches.length = children.length → branches.length ≠ 1 →
      c.element before (.union branches)
  group : ∀ before g, c.element before (.group g)
  optional : ∀ before g, c.element before (.optional g)
  minus : ∀ before g, c.element before (.minus g)
  filter : ∀ before e, c.element before (.filter e)
  /-- The target of an assignment is new. -/
  bind : ∀ start text value target rest,
    c.node (.node .bind start text (value :: target :: rest)) → ∀ before e,
      variableName target ∉ addElementVars [] before →
        c.element before (.bind e (variableName target))
  block : ∀ scope node, c.node node → Yields (readDataBlock scope node) c.data
  noBlock : c.data ⟨[], []⟩
  data : ∀ before block, c.data block → c.element before (.data block)
  template : ∀ scope inTemplate nodes, (∀ node ∈ nodes, c.node node) →
    Yields (readBlocks scope inTemplate nodes) c.template
  noTemplate : c.template []
  plain : ∀ node target inScope, c.node node → node.rule = .selectItem →
    node.children = [target] → variableName target ∈ inScope →
      c.column inScope (.var (variableName target))
  /-- A computed column has a new name. -/
  computed : ∀ node value target inScope, c.node node → node.rule = .selectItem →
    node.children = [value, target] → variableName target ∉ inScope → ∀ e,
      c.column inScope (.expr e (variableName target))

variable {c : Criterion}

/-! ## Expressions -/

/-- An expression that was read, if it was, meets a criterion at every depth. -/
def GivesMeeting (c : Criterion) (r : Except Failure Expr) : Prop :=
  ∀ e, r = .ok e → (Part.expr e).MeetsDeeply c

/-- Operators keep what operands meet. -/
theorem builder_meets (h : c.IsRead) :
    (∀ op r, GivesMeeting c r → GivesMeeting c (builder.unary op r)) ∧
      ∀ op r s, GivesMeeting c r → GivesMeeting c s → GivesMeeting c (builder.binary op r s) := by
  refine ⟨fun op r hr e he => ?_, fun op r s hr hs e he => ?_⟩
  · cases r with
    | error f => cases he
    | ok operand =>
      cases he
      refine Part.meetsDeeply_of (h.unary op operand) fun q hq => ?_
      rw [List.mem_singleton.mp hq]
      exact hr operand rfl
  · cases r with
    | error f => cases he
    | ok left =>
      cases s with
      | error f => cases he
      | ok right =>
        cases he
        refine Part.meetsDeeply_of (h.binary op left right) fun q hq => ?_
        rcases List.mem_cons.mp hq with rfl | hq
        · exact hr left rfl
        · rw [List.mem_singleton.mp hq]
          exact hs right rfl

/-- Membership meets a criterion if its operand and its items do. -/
theorem member_meets (h : c.IsRead) {negated : Bool} {operand : Expr} {items : List Expr}
    (hoperand : (Part.expr operand).MeetsDeeply c)
    (hitems : ∀ e ∈ items, (Part.expr e).MeetsDeeply c) :
    (Part.expr (.member negated operand items)).MeetsDeeply c := by
  refine Part.meetsDeeply_of (h.member negated operand items) fun q hq => ?_
  rcases List.mem_cons.mp hq with rfl | hq
  · exact hoperand
  · obtain ⟨e, he, rfl⟩ := List.mem_map.mp hq
    exact hitems e he

/-- A condition of existence meets a criterion if its group does. -/
theorem exists_meets (h : c.IsRead) {negated : Bool} {g : Group}
    (hg : (Part.group g).MeetsDeeply c) : (Part.expr (.exists negated g)).MeetsDeeply c := by
  refine Part.meetsDeeply_of (h.exists_ negated g) fun q hq => ?_
  rw [List.mem_singleton.mp hq]
  exact hg

/-- A call with a fitting number of arguments meets a criterion if they do. -/
theorem call_meets (h : c.IsRead) {function : Function} {args : List Expr}
    (htakes : function.takes args.length = true)
    (hbound : function = .bound → ∃ name, args = [.var name])
    (hargs : ∀ e ∈ args, (Part.expr e).MeetsDeeply c) :
    (Part.expr (.call function args)).MeetsDeeply c := by
  refine Part.meetsDeeply_of (h.call function args htakes hbound) fun q hq => ?_
  obtain ⟨e, he, rfl⟩ := List.mem_map.mp hq
  exact hargs e he

/-- A call by name meets a criterion if its arguments do. -/
theorem builtinCall_meets (h : c.IsRead) {start : Nat} {name : String} {args : List Expr}
    {function : Function} (hargs : ∀ e ∈ args, (Part.expr e).MeetsDeeply c) :
    GivesMeeting c (builtinCall start name args function) := by
  intro e he
  unfold builtinCall at he
  split at he
  · cases he
  · rename_i htakes
    have htakes : function.takes args.length = true := by simpa using htakes
    split at he
    · cases he
      exact call_meets h htakes (fun _ => ⟨_, rfl⟩) hargs
    · cases he
    · rename_i hnot _
      cases he
      exact call_meets h htakes (fun hbound => absurd hbound hnot) hargs

/-- A cast meets a criterion if its arguments do. -/
theorem castCall_meets (h : c.IsRead) {start : Nat} {target : CastTarget} {args : List Expr}
    (hargs : ∀ e ∈ args, (Part.expr e).MeetsDeeply c) :
    GivesMeeting c (castCall start target args) := by
  intro e he
  unfold castCall at he
  split at he <;> cases he
  exact call_meets h rfl (fun hbound => nomatch hbound) hargs

/-- Nodes of a criterion. -/
abbrev Criterion.Nodes (c : Criterion) (nodes : List Node) : Prop := ∀ node ∈ nodes, c.node node

/-- Inline data meets the criterion for data. -/
theorem readData_meets (h : c.IsRead) (scope : IriScope) {nodes : List Node}
    (hnodes : c.Nodes nodes) : Yields (readData scope nodes) c.data := by
  unfold readData
  split
  · exact yields_pure h.noBlock
  · exact h.block scope _ (hnodes _ List.mem_cons_self)

/-! ## Groups -/

mutual

/-- An expression that is read meets the criterion at every depth. -/
theorem readExpr_meets (h : c.IsRead) (scope : IriScope) (node : Node) (hnode : c.node node) :
    Yields (readExpr scope node) fun e => (Part.expr e).MeetsDeeply c := by
  match node with
  | .node rule start text children =>
    have hchildren : c.Nodes children := h.children _ hnode
    unfold readExpr
    split
    · -- operators and their operands
      refine (readTokens_meets h scope children hchildren).bind fun tokens htokens => ?_
      split
      · rename_i r hr
        obtain ⟨hunary, hbinary⟩ := builder_meets h
        exact yields_mk (Precedence.combine_keeps hunary hbinary htokens hr)
      · exact yields_throw _
    · -- a variable
      exact yields_pure (Part.meetsDeeply_leaf (h.var _) rfl)
    · -- `EXISTS`
      exact (readFirstGroup_meets h scope children hchildren).bind fun _ hgroup =>
        yields_pure (exists_meets h hgroup)
    · exact yields_unsupported _
    · -- a call of a function by its keyword
      split
      · exact yields_throw _
      · rename_i name args
        split
        · exact yields_unsupported _
        · have hargs : c.Nodes args := fun n hn => hchildren n (List.mem_cons_of_mem _ hn)
          exact (readExprs_meets h scope args hargs).bind fun args hmeets =>
            yields_mk (builtinCall_meets h hmeets)
    · -- a name, alone or with the argument of a cast
      split
      · exact yields_throw _
      · refine (yields_iri scope _).bind fun iri hiri => ?_
        split
        · exact yields_pure (Part.meetsDeeply_leaf (h.iri iri hiri) rfl)
        · rename_i args _
          split
          · exact yields_unsupported _
          · have hargs : c.Nodes args := h.children _
              (hchildren _ (List.mem_cons_of_mem _ List.mem_cons_self))
            exact (readExprs_meets h scope args hargs).bind fun args hmeets =>
              yields_mk (castCall_meets h hmeets)
    · -- a constant
      exact (h.const scope _ hnode).bind fun _ hconst =>
        yields_pure (Part.meetsDeeply_leaf hconst rfl)

/-- The operands among the parts of an expression meet the criterion, and memberships keep that. -/
theorem readTokens_meets (h : c.IsRead) (scope : IriScope) (nodes : List Node)
    (hnodes : c.Nodes nodes) :
    Yields (readTokens scope nodes) fun tokens =>
      ∀ token ∈ tokens, token.Brings (GivesMeeting c) := by
  match nodes with
  | [] => exact yields_pure fun _ htoken => absurd htoken List.not_mem_nil
  | .node rule start text children :: rest =>
    have hfirst : c.node (.node rule start text children) := hnodes _ List.mem_cons_self
    have ih := readTokens_meets h scope rest fun n hn => hnodes n (List.mem_cons_of_mem _ hn)
    have hcons : ∀ {token : Precedence.Token (Except Failure Expr)} {tokens},
        token.Brings (GivesMeeting c) → (∀ t ∈ tokens, t.Brings (GivesMeeting c)) →
        ∀ t ∈ token :: tokens, t.Brings (GivesMeeting c) := by
      intro token tokens htoken htokens t ht
      rcases List.mem_cons.mp ht with rfl | ht
      · exact htoken
      · exact htokens t ht
    unfold readTokens
    split
    · exact ih.bind fun tokens htokens => yields_pure (hcons trivial htokens)
    · exact ih.bind fun tokens htokens => yields_pure (hcons trivial htokens)
    · have hlisted := readListed_meets h scope children (h.children _ hfirst)
      refine hlisted.observe.bind fun items hitems => ?_
      refine ih.bind fun tokens htokens => yields_pure (hcons ?_ htokens)
      -- a failed list or operand gives no expression
      intro operand hoperand e he
      cases items with
      | error f => cases he
      | ok items =>
        cases operand with
        | error f => cases he
        | ok operand =>
          cases he
          exact member_meets h (hoperand operand rfl) (hitems items rfl)
    · refine (readExpr_meets h scope _ hfirst).observe.bind fun operand hoperand => ?_
      exact ih.bind fun tokens htokens => yields_pure (hcons hoperand htokens)

/-- The expressions of a list meet a criterion. -/
theorem readListed_meets (h : c.IsRead) (scope : IriScope) (nodes : List Node)
    (hnodes : c.Nodes nodes) :
    Yields (readListed scope nodes) fun es => ∀ e ∈ es, (Part.expr e).MeetsDeeply c := by
  match nodes with
  | [] => exact yields_pure fun _ he => absurd he List.not_mem_nil
  | .node rule start text items :: rest =>
    unfold readListed
    exact readExprs_meets h scope items (h.children _ (hnodes _ List.mem_cons_self))

/-- The expressions among nodes meet the criterion. -/
theorem readExprs_meets (h : c.IsRead) (scope : IriScope) (nodes : List Node)
    (hnodes : c.Nodes nodes) :
    Yields (readExprs scope nodes) fun es => ∀ e ∈ es, (Part.expr e).MeetsDeeply c := by
  match nodes with
  | [] => exact yields_pure fun _ he => absurd he List.not_mem_nil
  | .node rule start text children :: rest =>
    have hrest : c.Nodes rest := fun n hn => hnodes n (List.mem_cons_of_mem _ hn)
    unfold readExprs
    split
    · refine (readExpr_meets h scope _ (hnodes _ List.mem_cons_self)).bind fun first hfirst => ?_
      refine (readExprs_meets h scope rest hrest).bind fun es hes => yields_pure fun e he => ?_
      rcases List.mem_cons.mp he with rfl | he
      · exact hfirst
      · exact hes e he
    · exact readExprs_meets h scope rest hrest

/-- The first group among nodes meets the criterion. -/
theorem readFirstGroup_meets (h : c.IsRead) (scope : IriScope) (nodes : List Node)
    (hnodes : c.Nodes nodes) :
    Yields (readFirstGroup scope nodes) fun g => (Part.group g).MeetsDeeply c := by
  match nodes with
  | [] => exact yields_pure Part.meetsDeeply_empty
  | .node rule start text children :: rest =>
    unfold readFirstGroup
    split
    · exact readGroup_meets h scope _ (hnodes _ List.mem_cons_self)
    · exact readFirstGroup_meets h scope rest fun n hn => hnodes n (List.mem_cons_of_mem _ hn)

/-- There is a group that meets the criterion for each node. -/
theorem readGroups_meets (h : c.IsRead) (scope : IriScope) (nodes : List Node)
    (hnodes : c.Nodes nodes) :
    Yields (readGroups scope nodes) fun groups =>
      groups.length = nodes.length ∧ ∀ g ∈ groups, (Part.group g).MeetsDeeply c := by
  match nodes with
  | [] => exact yields_pure ⟨rfl, fun _ hg => absurd hg List.not_mem_nil⟩
  | node :: rest =>
    have hrest : c.Nodes rest := fun n hn => hnodes n (List.mem_cons_of_mem _ hn)
    unfold readGroups
    refine (readGroup_meets h scope node (hnodes _ List.mem_cons_self)).bind fun first hfirst => ?_
    refine (readGroups_meets h scope rest hrest).bind fun groups hgroups => yields_pure ?_
    refine ⟨congrArg (· + 1) hgroups.1, fun g hg => ?_⟩
    rcases List.mem_cons.mp hg with rfl | hg
    · exact hfirst
    · exact hgroups.2 g hg

/-- A group that is read meets the criterion at every depth. -/
theorem readGroup_meets (h : c.IsRead) (scope : IriScope) (node : Node) (hnode : c.node node) :
    Yields (readGroup scope node) fun g => (Part.group g).MeetsDeeply c := by
  match node with
  | .node _ _ _ [] => exact yields_pure Part.meetsDeeply_empty
  | .node _ _ _ (.node rule start text parts :: _) =>
    have hparts : c.Nodes parts := h.children _ (h.children _ hnode _ List.mem_cons_self)
    unfold readGroup
    split
    · exact yields_unsupported _
    · exact (readElements_meets h scope parts hparts Part.meetsDeeply_empty).bind fun _ hmeets =>
        yields_pure hmeets

/-- A group that meets the criterion still does when more elements are read. -/
theorem readElements_meets (h : c.IsRead) (scope : IriScope) (nodes : List Node)
    (hnodes : c.Nodes nodes) {done : List Element}
    (hdone : (Part.group (.mk done)).MeetsDeeply c) :
    Yields (readElements scope done nodes) fun elements =>
      (Part.group (.mk elements)).MeetsDeeply c := by
  match nodes with
  | [] => exact yields_pure hdone
  | .node rule start text children :: parts =>
    have hfirst : c.node (.node rule start text children) := hnodes _ List.mem_cons_self
    unfold readElements
    refine (readElement_meets h scope done _ hfirst).bind fun element hnew => ?_
    exact readElements_meets h scope parts (fun n hn => hnodes n (List.mem_cons_of_mem _ hn))
      (hdone.append hnew.1 hnew.2)

/-- An element that is read meets the criterion after those before it, and so do its parts. -/
theorem readElement_meets (h : c.IsRead) (scope : IriScope) (done : List Element) (node : Node)
    (hnode : c.node node) :
    Yields (readElement scope done node) fun element =>
      c.element done element ∧ ∀ p ∈ element.parts, p.MeetsDeeply c := by
  match node with
  | .node rule start text children =>
    have hchildren : c.Nodes children := h.children _ hnode
    have hgroup : ∀ {g : Group} {element : Element}, (Part.group g).MeetsDeeply c →
        element.parts = [.group g] → ∀ p ∈ element.parts, p.MeetsDeeply c := by
      intro g element hg hparts p hp
      rw [hparts] at hp
      rw [List.mem_singleton.mp hp]
      exact hg
    unfold readElement
    split
    · -- patterns
      exact (h.triples scope children hchildren).bind fun _ hpatterns =>
        yields_pure ⟨hpatterns done, fun p hp => absurd hp List.not_mem_nil⟩
    · -- one branch is a group, more are a union
      refine (readGroups_meets h scope children hchildren).bind fun groups hgroups => ?_
      obtain ⟨hlength, hmeets⟩ := hgroups
      split
      · exact yields_pure ⟨h.group _ _, hgroup (hmeets _ List.mem_cons_self) rfl⟩
      · rename_i hnot
        have hne : groups.length ≠ 1 := fun hone => by
          obtain ⟨g, hg⟩ := List.length_eq_one_iff.mp hone
          exact hnot g hg
        refine yields_pure ⟨h.union _ _ _ hnode done groups hlength hne, fun p hp => ?_⟩
        obtain ⟨g, hg, rfl⟩ := List.mem_map.mp hp
        exact hmeets g hg
    · -- `OPTIONAL`
      exact (readFirstGroup_meets h scope children hchildren).bind fun _ hg =>
        yields_pure ⟨h.optional _ _, hgroup hg rfl⟩
    · -- `MINUS`
      exact (readFirstGroup_meets h scope children hchildren).bind fun _ hg =>
        yields_pure ⟨h.minus _ _, hgroup hg rfl⟩
    · exact yields_unsupported _
    · exact yields_unsupported _
    · -- `FILTER`
      split
      · rename_i condition _
        have hcondition : c.node condition := hchildren _ List.mem_cons_self
        refine (readExpr_meets h scope condition hcondition).bind fun e he => ?_
        refine yields_pure ⟨h.filter _ _, fun p hp => ?_⟩
        rw [List.mem_singleton.mp hp]
        exact he
      · exact yields_throw _
    · -- `BIND`, whose target must be new
      split
      · rename_i value target rest
        have hvalue : c.node value := hchildren _ List.mem_cons_self
        refine (readExpr_meets h scope value hvalue).bind fun e he => ?_
        dsimp only
        split
        · exact yields_refuse _ _
        · rename_i hfree
          have hnew : variableName target ∉ addElementVars [] done := by simpa using hfree
          refine yields_pure ⟨h.bind _ _ value target rest hnode done e hnew, fun p hp => ?_⟩
          rw [List.mem_singleton.mp hp]
          exact he
      · exact yields_throw _
    · -- `VALUES`
      exact (readData_meets h scope hchildren).bind fun block hdata =>
        yields_pure ⟨h.data done block hdata, fun p hp => absurd hp List.not_mem_nil⟩
    · exact yields_throw _

end

/-! ## Columns and sort keys -/

/-- Every column meets the criterion in the scope with the columns computed before it. -/
def Criterion.Columns (c : Criterion) (inScope : List String) (items : List SelectItem) : Prop :=
  ∀ before item after, items = before ++ item :: after →
    c.column (inScope ++ before.filterMap SelectItem.alias?) item

/-- No columns meet every criterion. -/
theorem columns_nil (inScope : List String) : c.Columns inScope [] := by
  intro before item after hsplit
  exact absurd hsplit (by simp)

/-- Columns meet a criterion if the first one does and the others do behind it. -/
theorem Criterion.Columns.cons {inScope : List String} {item : SelectItem}
    {items : List SelectItem} (hitem : c.column inScope item)
    (h : c.Columns (inScope ++ item.alias?.toList) items) :
    c.Columns inScope (item :: items) := by
  intro before other after hsplit
  cases before with
  | nil =>
    cases hsplit
    simpa using hitem
  | cons first before =>
    cases hsplit
    have hnames : (item :: before).filterMap SelectItem.alias? =
        item.alias?.toList ++ before.filterMap SelectItem.alias? := by cases item <;> rfl
    rw [hnames, ← List.append_assoc]
    exact h before other after rfl

/-- The columns that are read meet the criterion, and so do their expressions. -/
theorem readItems_meets (h : c.IsRead) (scope : IriScope) (inScope : List String)
    (nodes : List Node) (hnodes : c.Nodes nodes)
    (hrules : ∀ node ∈ nodes, node.rule = .selectItem) :
    Yields (readItems scope inScope nodes) fun items =>
      c.Columns inScope items ∧
        ∀ e ∈ items.filterMap SelectItem.value?, (Part.expr e).MeetsDeeply c := by
  induction nodes generalizing inScope with
  | nil => exact yields_pure ⟨columns_nil inScope, fun _ he => absurd he List.not_mem_nil⟩
  | cons node rest ih =>
    have hnode : c.node node := hnodes node List.mem_cons_self
    have hrule := hrules node List.mem_cons_self
    have ih := fun inScope => ih inScope (fun n hn => hnodes n (List.mem_cons_of_mem _ hn))
      fun n hn => hrules n (List.mem_cons_of_mem _ hn)
    unfold readItems
    split
    · rename_i target hchildren
      dsimp only
      split
      · rename_i hname
        refine (ih inScope).bind fun items hitems => yields_pure ⟨?_, hitems.2⟩
        apply Criterion.Columns.cons
        · exact h.plain node target inScope hnode hrule hchildren (by simpa using hname)
        · simpa [SelectItem.alias?] using hitems.1
      · exact yields_throw _
    · rename_i value target hchildren
      have hvalue : c.node value := h.children node hnode value (hchildren ▸ List.mem_cons_self)
      refine (readExpr_meets h scope value hvalue).bind fun e he => ?_
      dsimp only
      split
      · exact yields_refuse _ _
      · rename_i hname
        refine (ih _).bind fun items hitems => yields_pure ⟨?_, fun other hother => ?_⟩
        · apply Criterion.Columns.cons
          · have hname : variableName target ∉ inScope := by simpa using hname
            exact h.computed node value target inScope hnode hrule hchildren hname e
          · exact hitems.1
        · rcases List.mem_cons.mp hother with rfl | hother
          · exact he
          · exact hitems.2 other hother
    · exact yields_refuse node _

/-- The sort keys meet a criterion. -/
def Modifiers.Meets (c : Criterion) (m : Modifiers) : Prop :=
  ∀ condition ∈ m.orderBy, (Part.expr condition.key).MeetsDeeply c

/-- No modifiers meet every criterion. -/
theorem modifiersNone_meets : Modifiers.none.Meets c := fun _ hc => absurd hc List.not_mem_nil

/-- The key of a sort condition meets a criterion. -/
theorem readOrderCondition_meets (h : c.IsRead) (scope : IriScope) {node : Node}
    (hnode : c.node node) :
    Yields (readOrderCondition scope node) fun condition =>
      (Part.expr condition.key).MeetsDeeply c := by
  have hchildren := h.children node hnode
  unfold readOrderCondition
  split
  · rename_i key heq
    have hkey : c.node key := hchildren key (heq ▸ List.mem_cons_self)
    exact (readExpr_meets h scope key hkey).bind fun _ he => yields_pure he
  · rename_i direction key heq
    have hkey : c.node key := hchildren key (heq ▸ List.mem_cons_of_mem _ List.mem_cons_self)
    exact (readExpr_meets h scope key hkey).bind fun _ he => yields_pure he
  · exact yields_refuse node _

/-- One more modifier keeps a criterion. -/
theorem readModifier_meets (h : c.IsRead) (scope : IriScope) {done : Modifiers} {node : Node}
    (hnode : c.node node) (hdone : done.Meets c) :
    Yields (readModifier scope done node) (Modifiers.Meets c) := by
  unfold readModifier
  split
  · exact yields_unsupported _
  · exact yields_unsupported _
  · refine (yields_mapM fun child hchild => ?_).bind fun keys hkeys => yields_pure hkeys
    exact readOrderCondition_meets h scope (h.children node hnode child hchild)
  · exact (yields_true _).bind fun _ _ => yields_pure hdone
  · exact (yields_true _).bind fun _ _ => yields_pure hdone
  · exact yields_pure hdone

/-! ## Whole queries -/

/-- The template, the pattern and the sort keys meet a criterion. -/
structure Body.Meets (c : Criterion) (body : Body) : Prop where
  template : c.template body.template
  pattern : (Part.group body.pattern).MeetsDeeply c
  modifiers : body.modifiers.Meets c

/-- A template meets the criterion for templates. -/
theorem readTemplate_meets (h : c.IsRead) (scope : IriScope) (inTemplate : Bool)
    {nodes : List Node} (hnodes : c.Nodes nodes) :
    Yields (readTemplate scope inTemplate nodes) c.template := by
  unfold readTemplate
  split
  · exact yields_pure h.noTemplate
  · exact h.template scope inTemplate _ (h.children _ (hnodes _ List.mem_cons_self))

/-- A template that stands for a pattern is either empty or a block of patterns. -/
theorem readTemplate_triples (h : c.IsRead) (scope : IriScope) {nodes : List Node}
    (hnodes : c.Nodes nodes) :
    Yields (readTemplate scope false nodes) fun patterns =>
      patterns ≠ [] → c.element [] (.triples patterns) := by
  unfold readTemplate
  split
  · exact yields_pure fun hne => absurd rfl hne
  · refine (h.triples scope _ (h.children _ (hnodes _ List.mem_cons_self))).mono ?_
    exact fun _ hpatterns _ => hpatterns []

/-- One more clause keeps a criterion. -/
theorem readPart_meets (h : c.IsRead) (scope : IriScope) {done : Body} {node : Node}
    (hnode : c.node node) (hdone : done.Meets c) :
    Yields (readPart scope done node) (Body.Meets c) := by
  have hchildren : c.Nodes node.children := h.children node hnode
  unfold readPart
  split
  · exact yields_unsupported _
  · exact (readTemplate_meets h scope true hchildren).bind fun _ htemplate =>
      yields_pure ⟨htemplate, hdone.pattern, hdone.modifiers⟩
  · have hboth := (readTemplate_meets h scope false hchildren).and
      (readTemplate_triples h scope hchildren)
    refine hboth.bind fun triples htriples => yields_pure ⟨htriples.1, ?_, hdone.modifiers⟩
    dsimp only
    split
    · exact Part.meetsDeeply_empty
    · rename_i hne
      have hne : triples ≠ [] := by simpa using hne
      exact Part.meetsDeeply_empty.append (htriples.2 hne) fun _ hp => absurd hp List.not_mem_nil
  · exact (readFirstGroup_meets h scope _ hchildren).bind fun _ hg =>
      yields_pure ⟨hdone.template, hg, hdone.modifiers⟩
  · refine (yields_foldlM modifiersNone_meets fun _ child hchild hm => ?_).bind
      fun _ hm => yields_pure ⟨hdone.template, hdone.pattern, hm⟩
    exact readModifier_meets h scope (hchildren child hchild) hm
  · exact yields_pure hdone

/-- The columns, or the template, of a form meet a criterion over what is in scope, and so do the
expressions of columns. -/
structure Form.Meets (c : Criterion) (inScope : List String) (form : Form) : Prop where
  columns : c.Columns inScope form.items
  computed : ∀ e ∈ form.computed, (Part.expr e).MeetsDeeply c
  template : ∀ template, form = .construct template → c.template template

/-- The columns of a selection meet a criterion. -/
theorem readSelect_meets (h : c.IsRead) (scope : IriScope) (inScope : List String)
    {clause : List Node} (hclause : c.Nodes clause) :
    Yields (readSelect scope inScope clause) (Form.Meets c inScope) := by
  have hitems : c.Nodes (clause.filter fun node => node.rule == .selectItem) :=
    fun node hnode => hclause node (List.mem_filter.mp hnode).1
  have hrules : ∀ node ∈ clause.filter fun node => node.rule == .selectItem,
      node.rule = .selectItem := fun node hnode => eq_of_beq (List.mem_filter.mp hnode).2
  unfold readSelect
  refine (readItems_meets h scope inScope _ hitems hrules).bind fun items hmeets => yields_pure ?_
  split
  · exact ⟨columns_nil inScope, fun _ he => absurd he List.not_mem_nil, nofun⟩
  · exact ⟨hmeets.1, hmeets.2, nofun⟩

/-- A query meets a criterion: its parts at every depth, its data, its columns over the variables
of the pattern and the data, and its template. -/
structure Meets (c : Criterion) (q : Query) : Prop where
  roots : ∀ root ∈ q.roots, root.MeetsDeeply c
  data : ∀ block, q.data = some block → c.data block
  form : q.form.Meets c (q.pattern.vars ++ q.data.elim [] DataBlock.vars)

/-- A query meets a criterion if the nodes of its form do. -/
theorem readForm_meets (h : c.IsRead) (scope : IriScope) {data : Option DataBlock} {node : Node}
    (hnode : c.node node) (hdata : ∀ block, data = some block → c.data block) :
    Yields (readForm scope data node) (Meets c) := by
  have hchildren : c.Nodes node.children := h.children node hnode
  have hparts : Yields (node.children.foldlM (readPart scope) ⟨[], .empty, .none⟩)
      (Body.Meets c) :=
    yields_foldlM ⟨h.noTemplate, Part.meetsDeeply_empty, modifiersNone_meets⟩
      fun _ child hchild hdone => readPart_meets h scope (hchildren child hchild) hdone
  have hmeets : ∀ {form : Form} {body : Body}, body.Meets c →
      form.Meets c (body.pattern.vars ++ data.elim [] DataBlock.vars) →
      Meets c ⟨form, body.pattern, body.modifiers, data⟩ := by
    intro form body hbody hform
    refine ⟨fun root hroot => ?_, hdata, hform⟩
    rcases List.mem_append.mp hroot with hroot | hroot
    · rcases List.mem_cons.mp hroot with rfl | hroot
      · exact hbody.pattern
      · obtain ⟨e, he, rfl⟩ := List.mem_map.mp hroot
        exact hform.computed e he
    · obtain ⟨condition, hc, rfl⟩ := List.mem_map.mp hroot
      exact hbody.modifiers condition hc
  unfold readForm
  extract_lets clause rest
  -- what follows the parts, whichever form has them
  have hrest : ∀ body, body.Meets c → Yields (rest body) (Meets c) := by
    intro body hbody
    dsimp only [rest]
    split
    · have hclause : c.Nodes (clause.flatMap ParseTree.children) := by
        intro child hchild
        obtain ⟨parent, hparent, hin⟩ := List.mem_flatMap.mp hchild
        exact h.children parent (hchildren parent (List.mem_filter.mp hparent).1) child hin
      exact (readSelect_meets h scope _ hclause).bind fun _ hform => yields_pure (hmeets hbody hform)
    · have hnone : ∀ e ∈ Form.ask.computed, (Part.expr e).MeetsDeeply c := nofun
      exact yields_pure (hmeets hbody ⟨columns_nil _, hnone, nofun⟩)
    · refine yields_pure (hmeets hbody ⟨columns_nil _, fun _ he => absurd he List.not_mem_nil, ?_⟩)
      rintro template ⟨⟩
      exact hbody.template
  split
  · exact hparts.bind hrest
  · exact hparts.bind hrest
  · exact hparts.bind hrest
  · exact (yields_unsupported _).bind hrest
  · exact (yields_unsupported _).bind hrest
  · exact (yields_refuse node _).bind hrest

/-- A query that is read from nodes of a criterion meets it, and its sort keys use no variable
that nothing binds. -/
theorem readParts_meets (h : c.IsRead) {nodes : List Node} (hnodes : c.Nodes nodes) :
    Yields (readParts nodes) fun q => Meets c q ∧ unboundKey? q = none := by
  have hchildren : ∀ rule, c.Nodes
      ((nodes.filter fun node => node.rule == rule).flatMap ParseTree.children) := by
    intro rule child hchild
    obtain ⟨parent, hparent, hin⟩ := List.mem_flatMap.mp hchild
    exact h.children parent (hnodes parent (List.mem_filter.mp hparent).1) child hin
  unfold readParts
  refine (yields_true _).bind fun scope _ => ?_
  extract_lets rest
  have hrest : ∀ data : Option DataBlock, (∀ block, data = some block → c.data block) →
      Yields (rest data) fun q => Meets c q ∧ unboundKey? q = none := by
    intro data hdata
    dsimp only [rest]
    split
    · rename_i form others hform
      have hnode : c.node form := hnodes form (List.mem_of_mem_drop (hform ▸ List.mem_cons_self))
      refine (readForm_meets h scope hnode hdata).bind fun q hq => ?_
      split
      · exact yields_throw _
      · rename_i hkeys
        exact yields_pure ⟨hq, hkeys⟩
    · exact yields_throw _
  split
  · exact (yields_pure fun block hblock => nomatch hblock).bind hrest
  · rename_i block _
    refine (readData_meets h scope (hchildren .valuesClause)).bind fun table htable => ?_
    refine (yields_pure fun other hother => ?_).bind hrest
    cases hother
    exact htable

end RdfStore.Query
