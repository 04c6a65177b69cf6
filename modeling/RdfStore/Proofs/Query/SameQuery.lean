import RdfStore.Proofs.Query.Moved

/-!
# Queries of the same trees

Two trees of a query that are the same, apart from places and from inline data that says the same,
are read as the same query, or both are refused. Only the rules around inline data read nodes whose
texts may differ, and they use no text of such a node.
-/

set_option autoImplicit false

namespace RdfStore.Query

open RdfStore.Peg RdfStore.Syntax RdfStore.Text
open ParseTree (unplacedAll)

/-! ## Nodes that are the same -/

/-- The rules of inline data. -/
def isData : Symbol → Bool
  | .inlineData | .valuesClause => true
  | _ => false

/-- The rules that can leave inline data inside their nodes. -/
def enclosesData : Symbol → Bool
  | .query | .selectQuery | .selectClause | .selectItem | .constructQuery | .askQuery
  | .whereClause | .modifiers | .groupClause | .groupCondition | .havingClause | .orderClause
  | .orderCondition | .group | .subquery | .groupContent | .unionPattern | .optionalPattern
  | .minusPattern | .graphPattern | .servicePattern | .filter | .bind | .expression | .memberOp _
  | .expressionList | .exists _ | .builtinCall | .iriOrCall | .arguments => true
  | _ => false

/-- Around inline data no other inline data stands. -/
theorem enclosesData_of_isData {rule : Symbol} (h : isData rule = true) :
    enclosesData rule = false := by
  unfold isData at h
  split at h
  · rfl
  · rfl
  · cases h

/-- Blocks of inline data that say the same, whatever prefixes are defined. -/
def SameBlock (block block' : Node) : Prop :=
  ∀ scope, Agree Eq (readDataBlock scope block) (readDataBlock scope block')

/-- Inline data that says the same. -/
inductive SameData : Node → Node → Prop where
  | node {rule : Symbol} {start start' : Nat} {text text' : List Char} {block block' : Node}
    (hrule : isData rule = true) (h : SameBlock block block') :
    SameData (.node rule start text [block]) (.node rule start' text' [block'])

/-- Nodes of the grammar that are the same, apart from places and from inline data that says the
same. -/
def SameNode (node node' : Node) : Prop :=
  IsFormed grammar node ∧ Same enclosesData SameData node node'

namespace SameNode

variable {node node' : Node}

/-- The same nodes are of one rule. -/
theorem rule_eq (h : SameNode node node') : node.rule = node'.rule := by
  cases h.2 with
  | moved h => exact rule_eq_of_unplaced h
  | twin h =>
    cases h
    rfl
  | around _ _ => rfl

/-- Nodes of rules without inline data are moved. -/
theorem unplaced_eq (h : SameNode node node') (hdata : isData node.rule = false)
    (hencloses : enclosesData node.rule = false) : node.unplaced = node'.unplaced := by
  cases h.2 with
  | moved h => exact h
  | twin h =>
    cases h with
    | node hrule _ => cases hrule.symm.trans hdata
  | around hrule _ => cases hrule.symm.trans hencloses

/-- The children of nodes that are no inline data are the same. -/
theorem children (h : SameNode node node') (hdata : isData node.rule = false) :
    List.Forall₂ SameNode node.children node'.children := by
  refine (List.forall₂_and_left _ _).mpr ⟨h.1.children, ?_⟩
  cases h.2 with
  | moved h => exact same_of_unplacedAll (unplacedAll_children h)
  | twin h =>
    cases h with
    | node hrule _ => cases hrule.symm.trans hdata
  | around _ hchildren => exact hchildren

/-- Nodes of inline data have blocks that say the same. -/
theorem blocks (h : SameNode node node') (hdata : isData node.rule = true) :
    List.Forall₂ SameBlock node.children node'.children := by
  cases h.2 with
  | moved h =>
    refine (forall₂_of_unplacedAll (unplacedAll_children h)).imp fun _ _ hblock scope => ?_
    exact readDataBlock_moved scope hblock
  | twin h =>
    cases h with
    | node _ hblock => exact .cons hblock .nil
  | around hencloses _ => cases hencloses.symm.trans (enclosesData_of_isData hdata)

end SameNode

/-- The first of blocks that say the same is read alike. -/
theorem readData_same (scope : IriScope) {blocks blocks' : List Node}
    (h : List.Forall₂ SameBlock blocks blocks') :
    Agree Eq (readData scope blocks) (readData scope blocks') := by
  cases h with
  | nil => exact agree_refl _
  | cons hblock _ => exact hblock scope

/-! ## The shape of some nodes -/

/-- Rules whose nodes have no inline data as children. -/
def wrapsData : Symbol → Bool
  | .memberOp _ | .iriOrCall | .unionPattern | .group | .orderClause => true
  | _ => false

/-- What these rules call leaves nodes that are no inline data. -/
theorem calls_of_wrapsData {rule : Symbol} (h : wrapsData rule = true) :
    (grammar.production rule).manner = .words ∧ ∀ mode, mode ≠ .token →
      ∀ q ∈ (grammar.production rule).body.calls,
        isData q = false ∧ (grammar.production q).manner.isVisible mode = true := by
  have hcalls : (grammar.production rule).manner = .words ∧ ∀ mode ∈ [Mode.words, .compound],
      ∀ q ∈ (grammar.production rule).body.calls,
        isData q = false ∧ (grammar.production q).manner.isVisible mode = true := by
    unfold wrapsData at h
    split at h
    · rename_i negated
      cases negated <;> decide
    · decide
    · decide
    · decide
    · decide
    · cases h
  refine ⟨hcalls.1, fun mode hmode => hcalls.2 mode ?_⟩
  cases mode with
  | token => exact absurd rfl hmode
  | words | compound => simp

/-- The children of their nodes are of rules that they call. -/
theorem mem_calls_of_wrapsData {node : Node} (h : IsFormed grammar node)
    (hwraps : wrapsData node.rule = true) :
    ∀ child ∈ node.children, child.rule ∈ (grammar.production node.rule).body.calls := by
  cases h with
  | @node rule _ _ children mode hvisible hleaves _ =>
    intro child hchild
    obtain ⟨hmanner, hcalls⟩ := calls_of_wrapsData hwraps
    change (grammar.production rule).manner = .words at hmanner
    rw [hmanner] at hvisible hleaves
    have hcalls := hcalls mode (bne_iff_ne.mp hvisible)
    exact hleaves.mem_calls (fun q hq => (hcalls q hq).2) _ (List.mem_map_of_mem hchild)

/-- Where no inline data can stand there is none. -/
theorem isData_child {node : Node} (h : IsFormed grammar node)
    (hwraps : wrapsData node.rule = true) : ∀ child ∈ node.children, isData child.rule = false :=
  fun child hchild =>
    ((calls_of_wrapsData hwraps).2 .words nofun _ (mem_calls_of_wrapsData h hwraps child hchild)).1

/-- The branches of a union are groups. -/
theorem rule_branch {node : Node} (h : IsFormed grammar node) (hrule : node.rule = .unionPattern) :
    ∀ child ∈ node.children, child.rule = .group := by
  intro child hchild
  have hmem := mem_calls_of_wrapsData h (hrule ▸ rfl) child hchild
  rw [hrule] at hmem
  have hcalls : ∀ q ∈ (grammar.production .unionPattern).body.calls, q = .group := by decide
  exact hcalls _ hmem

/-- A call of a function starts with the name. -/
theorem rule_name_of_builtinCall {start : Nat} {text : List Char} {name : Node} {args : List Node}
    (h : IsFormed grammar (.node .builtinCall start text (name :: args))) :
    name.rule = .builtinName := by
  cases h with
  | @node _ _ _ _ mode hvisible hleaves _ =>
    generalize hrules : (name :: args).map ParseTree.rule = rules at hleaves
    cases hleaves with
    | seq hname _ =>
      rw [hname.of_visible hvisible] at hrules
      injection hrules

/-- A sort key of two nodes starts with the direction. -/
theorem rule_direction_of_orderCondition {node direction key : Node} (h : IsFormed grammar node)
    (hrule : node.rule = .orderCondition) (hchildren : node.children = [direction, key]) :
    direction.rule = .direction := by
  cases h with
  | @node _ _ _ children mode hvisible hleaves _ =>
    cases hrule
    cases hchildren
    generalize hrules : [direction, key].map ParseTree.rule = rules at hleaves
    cases hleaves with
    | left hleaves =>
      cases hleaves with
      | seq hdirection _ =>
        rw [hdirection.of_visible hvisible] at hrules
        injection hrules
    | right hleaves =>
      -- what follows leaves one node
      suffices hone : ∃ r, rules = [r] by
        obtain ⟨r, rfl⟩ := hone
        cases hrules
      cases hleaves with
      | left hconstraint =>
        cases hconstraint with
        | left hleaves =>
          cases hleaves with
          | seq hopen hleaves =>
            cases hopen
            cases hleaves with
            | seq hvalue hclose =>
              cases hclose
              rw [hvalue.of_visible hvisible]
              exact ⟨_, rfl⟩
        | right hleaves =>
          cases hleaves with
          | left hexists => exact ⟨_, hexists.of_visible hvisible⟩
          | right hleaves =>
            cases hleaves with
            | left hexists => exact ⟨_, hexists.of_visible hvisible⟩
            | right hcall =>
              cases hcall with
              | left hcall => exact ⟨_, hcall.of_visible hvisible⟩
              | right hcall => exact ⟨_, hcall.of_visible hvisible⟩
      | right hvar => exact ⟨_, hvar.of_visible hvisible⟩

/-! ## Expressions -/

/-- Results that are gone on with alike are alike. -/
theorem AlikeResults.bind {α β γ δ : Type} {r : α → β → Prop} {q : γ → δ → Prop}
    {a : Except Failure α} {b : Except Failure β} {f : α → Except Failure γ}
    {f' : β → Except Failure δ} (h : AlikeResults r a b)
    (hf : ∀ x y, r x y → AlikeResults q (f x) (f' y)) : AlikeResults q (a >>= f) (b >>= f') := by
  cases a with
  | error _ =>
    cases b with
    | error _ => exact trivial
    | ok _ => exact h.elim
  | ok x =>
    cases b with
    | error _ => exact h.elim
    | ok y => exact hf x y h

/-- Operators make alike results of alike results. -/
theorem builder_alike :
    (∀ op a b, AlikeResults Eq a b → AlikeResults Eq (builder.unary op a) (builder.unary op b)) ∧
      ∀ op a b c d, AlikeResults Eq a b → AlikeResults Eq c d →
        AlikeResults Eq (builder.binary op a c) (builder.binary op b d) := by
  refine ⟨fun op a b h => h.bind fun x y hxy => ?_, fun op a b c d h h' => ?_⟩
  · exact hxy ▸ rfl
  · refine h.bind fun x y hxy => h'.bind fun x' y' hxy' => ?_
    exact hxy ▸ hxy' ▸ rfl

/-- A call by name gives the same wherever it stands, and fails the same way. -/
theorem builtinCall_alike (start start' : Nat) (name : String) (args : List Expr)
    (function : Function) :
    AlikeResults Eq (builtinCall start name args function)
      (builtinCall start' name args function) := by
  unfold builtinCall
  split
  · exact trivial
  · split <;> first | exact rfl | exact trivial

/-- A cast gives the same wherever it stands, and fails the same way. -/
theorem castCall_alike (start start' : Nat) (target : CastTarget) (args : List Expr) :
    AlikeResults Eq (castCall start target args) (castCall start' target args) := by
  unfold castCall
  split <;> first | exact rfl | exact trivial

/-- A node has one IRI, wherever it stands. -/
theorem SameNode.agree_iri {node node' : Node} (h : SameNode node node') (scope : IriScope) :
    Agree Eq (take (scope.iri Symbol.terminal? node))
      (take (scope.iri Symbol.terminal? node')) := by
  cases hterminal : Symbol.terminal? node.rule with
  | some t =>
    have hrule : node.rule = .terminal t := by
      generalize node.rule = rule at hterminal
      cases rule <;> cases hterminal
      rfl
    exact Query.agree_iri scope (sameToken_of_unplaced (h.unplaced_eq (hrule ▸ rfl) (hrule ▸ rfl)))
  | none =>
    unfold IriScope.iri
    rw [← h.rule_eq, hterminal]
    exact agree_throw _ _

/-- A node that stands for a constant term has one, wherever it stands. -/
theorem SameNode.readTerm {node node' : Node} (h : SameNode node node') (scope : IriScope) :
    Agree Eq (Query.readTerm scope node) (Query.readTerm scope node') := by
  by_cases hplain : isData node.rule = false ∧ enclosesData node.rule = false
  · exact readTerm_moved scope (h.unplaced_eq hplain.1 hplain.2)
  · unfold Query.readTerm
    rw [← h.rule_eq]
    split
    · rename_i hrule
      exact absurd ⟨hrule ▸ rfl, hrule ▸ rfl⟩ hplain
    · rename_i hrule
      exact absurd ⟨hrule ▸ rfl, hrule ▸ rfl⟩ hplain
    · rename_i hrule
      exact absurd ⟨hrule ▸ rfl, hrule ▸ rfl⟩ hplain
    · exact agree_refuse _ _ _ _

mutual

/-- Expressions that are the same are read alike. -/
theorem readExpr_same (scope : IriScope) (node node' : Node) (h : SameNode node node') :
    Agree Eq (readExpr scope node) (readExpr scope node') := by
  have hrule := h.rule_eq
  have hterm := h.readTerm scope
  have hplain := h.unplaced_eq
  have hchildren := h.children
  have hformed := h.1
  match node, node' with
  | .node rule start text children, .node rule' start' text' children' =>
    obtain rfl : rule = rule' := hrule
    unfold readExpr
    split
    · -- operators and their operands
      refine (readTokens_same scope children children' (hchildren rfl)).bind fun _ _ htokens => ?_
      have hcombine := Precedence.combine_alike builder_alike.1 builder_alike.2 htokens
      generalize Precedence.combine builder _ = tree at hcombine ⊢
      generalize Precedence.combine builder _ = tree' at hcombine ⊢
      cases hcombine with
      | none => exact agree_throw _ _
      | some hresult => exact agree_mk hresult
    · -- a variable
      obtain rfl : text = text' := text_eq_of_unplaced (hplain rfl rfl)
      exact agree_pure rfl
    · -- `EXISTS`
      exact (readFirstGroup_same scope children children' (hchildren rfl)).then
        fun _ => agree_pure rfl
    · exact agree_unsupported _ _
    · -- a call of a function by its keyword
      have hparts : List.Forall₂ SameNode children children' := hchildren rfl
      cases hparts with
      | nil => exact agree_throw _ _
      | @cons name name' args args' hname hargs =>
        have hnameRule := rule_name_of_builtinCall hformed
        have hmoved := hname.unplaced_eq (hnameRule ▸ rfl) (hnameRule ▸ rfl)
        have hstring : name.string = name'.string :=
          congrArg String.ofList (text_eq_of_unplaced hmoved)
        dsimp only
        rw [hstring]
        split
        · exact agree_unsupported _ _
        · exact (readExprs_same scope args args' hargs).then
            fun args => agree_mk (builtinCall_alike start start' _ args _)
    · -- a name, alone or with the argument of a cast
      have hparts : List.Forall₂ SameNode children children' := hchildren rfl
      have hdata := isData_child hformed rfl
      cases hparts with
      | nil => exact agree_throw _ _
      | @cons name name' rest rest' hname hrest =>
        have hargs := readListed_same scope rest rest' hrest
          fun n hn => hdata n (List.mem_cons_of_mem _ hn)
        refine (hname.agree_iri scope).then fun iri => ?_
        cases hrest with
        | nil => exact agree_pure rfl
        | @cons arguments arguments' _ _ _ _ =>
          obtain ⟨_, _, _, args⟩ := arguments
          obtain ⟨_, _, _, args'⟩ := arguments'
          dsimp only
          split
          · exact agree_unsupported _ _
          · exact hargs.then fun args => agree_mk (castCall_alike start start' _ args)
    · -- a constant
      exact hterm.then fun _ => agree_pure rfl
termination_by structural node

/-- The parts of expressions that are the same are alike. -/
theorem readTokens_same (scope : IriScope) (nodes nodes' : List Node)
    (h : List.Forall₂ SameNode nodes nodes') :
    Agree (List.Forall₂ (Precedence.Token.Alike (AlikeResults Eq))) (readTokens scope nodes)
      (readTokens scope nodes') := by
  match nodes, nodes', h with
  | [], [], _ => exact agree_pure .nil
  | .node rule start text children :: rest, .node rule' start' text' children' :: rest',
      .cons hnode hrest =>
    obtain rfl : rule = rule' := hnode.rule_eq
    have hmore := readTokens_same scope rest rest' hrest
    have hexpr := readExpr_same scope _ _ hnode
    unfold readTokens
    split
    · exact hmore.bind fun _ _ htokens => agree_pure (.cons (.between _) htokens)
    · exact hmore.bind fun _ _ htokens => agree_pure (.cons (.before _) htokens)
    · have hlisted := readListed_same scope children children' (hnode.children rfl)
        (isData_child hnode.1 rfl)
      refine hlisted.observe.bind fun _ _ hitems => hmore.bind fun _ _ htokens => ?_
      refine agree_pure (.cons (.after fun _ _ hoperand => ?_) htokens)
      refine hitems.bind fun _ _ hitems => hoperand.bind fun _ _ hoperand => ?_
      exact hitems ▸ hoperand ▸ rfl
    · refine hexpr.observe.bind fun _ _ hoperand => ?_
      exact hmore.bind fun _ _ htokens => agree_pure (.cons (.operand hoperand) htokens)
termination_by structural nodes

/-- Lists of expressions that are the same are read alike. -/
theorem readListed_same (scope : IriScope) (nodes nodes' : List Node)
    (h : List.Forall₂ SameNode nodes nodes') (hdata : ∀ node ∈ nodes, isData node.rule = false) :
    Agree Eq (readListed scope nodes) (readListed scope nodes') := by
  match nodes, nodes', h with
  | [], [], _ => exact agree_refl _
  | .node rule start text items :: rest, .node rule' start' text' items' :: rest',
      .cons hnode hrest =>
    unfold readListed
    exact readExprs_same scope items items' (hnode.children (hdata _ List.mem_cons_self))
termination_by structural nodes

/-- Expressions among nodes that are the same are read alike. -/
theorem readExprs_same (scope : IriScope) (nodes nodes' : List Node)
    (h : List.Forall₂ SameNode nodes nodes') :
    Agree Eq (readExprs scope nodes) (readExprs scope nodes') := by
  match nodes, nodes', h with
  | [], [], _ => exact agree_refl _
  | .node rule start text items :: rest, .node rule' start' text' items' :: rest',
      .cons hnode hrest =>
    obtain rfl : rule = rule' := hnode.rule_eq
    have hexpr := readExpr_same scope _ _ hnode
    have hmore := readExprs_same scope rest rest' hrest
    unfold readExprs
    split
    · exact hexpr.then fun _ => hmore.then fun _ => agree_pure rfl
    · exact hmore
termination_by structural nodes

/-- The first group among nodes that are the same is read alike. -/
theorem readFirstGroup_same (scope : IriScope) (nodes nodes' : List Node)
    (h : List.Forall₂ SameNode nodes nodes') :
    Agree Eq (readFirstGroup scope nodes) (readFirstGroup scope nodes') := by
  match nodes, nodes', h with
  | [], [], _ => exact agree_refl _
  | .node rule start text children :: rest, .node rule' start' text' children' :: rest',
      .cons hnode hrest =>
    obtain rfl : rule = rule' := hnode.rule_eq
    have hgroup := readGroup_same scope _ _ hnode
    have hmore := readFirstGroup_same scope rest rest' hrest
    unfold readFirstGroup
    split
    · exact hgroup rfl
    · exact hmore
termination_by structural nodes

/-- Groups that are the same are read alike. -/
theorem readGroups_same (scope : IriScope) (nodes nodes' : List Node)
    (h : List.Forall₂ SameNode nodes nodes') (hrules : ∀ node ∈ nodes, node.rule = .group) :
    Agree Eq (readGroups scope nodes) (readGroups scope nodes') := by
  match nodes, nodes', h with
  | [], [], _ => exact agree_refl _
  | node :: rest, node' :: rest', .cons hnode hrest =>
    unfold readGroups
    refine (readGroup_same scope node node' hnode (hrules node List.mem_cons_self)).then fun _ => ?_
    have hmore := readGroups_same scope rest rest' hrest
      fun n hn => hrules n (List.mem_cons_of_mem _ hn)
    exact hmore.then fun _ => agree_pure rfl
termination_by structural nodes

/-- A group that is the same is read alike. -/
theorem readGroup_same (scope : IriScope) (node node' : Node) (h : SameNode node node')
    (hrule : node.rule = .group) : Agree Eq (readGroup scope node) (readGroup scope node') := by
  have hchildren := h.children (hrule ▸ rfl)
  have hdata := isData_child h.1 (hrule ▸ rfl)
  match node, node', hchildren with
  | .node _ _ _ [], .node _ _ _ [], _ => exact agree_pure rfl
  | .node _ _ _ (.node inner _ _ parts :: _), .node _ _ _ (.node inner' _ _ parts' :: _),
      .cons hfirst _ =>
    obtain rfl : inner = inner' := hfirst.rule_eq
    have hparts : List.Forall₂ SameNode parts parts' :=
      hfirst.children (hdata _ List.mem_cons_self)
    unfold readGroup
    split
    · exact agree_unsupported _ _
    · exact (readElements_same scope [] parts parts' hparts).then fun _ => agree_pure rfl
termination_by structural node

/-- The elements of groups that are the same are read alike. -/
theorem readElements_same (scope : IriScope) (done : List Element) (nodes nodes' : List Node)
    (h : List.Forall₂ SameNode nodes nodes') :
    Agree Eq (readElements scope done nodes) (readElements scope done nodes') := by
  match nodes, nodes', h with
  | [], [], _ => exact agree_refl _
  | .node _ _ _ _ :: rest, .node _ _ _ _ :: rest', .cons hnode hrest =>
    unfold readElements
    exact (readElement_same scope done _ _ hnode).then
      fun element => readElements_same scope (done ++ [element]) rest rest' hrest
termination_by structural nodes

/-- An element of a group is read alike if it is the same. -/
theorem readElement_same (scope : IriScope) (done : List Element) (node node' : Node)
    (h : SameNode node node') :
    Agree Eq (readElement scope done node) (readElement scope done node') := by
  have hrule := h.rule_eq
  have hplain := h.unplaced_eq
  have hchildren := h.children
  have hblocks := h.blocks
  have hformed := h.1
  match node, node' with
  | .node rule start text children, .node rule' start' text' children' =>
    obtain rfl : rule = rule' := hrule
    unfold readElement
    split
    · -- patterns
      exact (readBlocks_moved scope false (unplacedAll_children (hplain rfl rfl))).then
        fun _ => agree_pure rfl
    · -- one branch is a group, more are a union
      refine (readGroups_same scope children children' (hchildren rfl)
        (rule_branch hformed rfl)).then fun _ => ?_
      exact agree_refl _
    · -- `OPTIONAL`
      exact (readFirstGroup_same scope children children' (hchildren rfl)).then
        fun _ => agree_pure rfl
    · -- `MINUS`
      exact (readFirstGroup_same scope children children' (hchildren rfl)).then
        fun _ => agree_pure rfl
    · exact agree_unsupported _ _
    · exact agree_unsupported _ _
    · -- `FILTER`
      have hparts : List.Forall₂ SameNode children children' := hchildren rfl
      cases hparts with
      | nil => exact agree_throw _ _
      | cons hcondition _ =>
        exact (readExpr_same scope _ _ hcondition).then fun _ => agree_pure rfl
    · -- `BIND`, whose target is a variable
      have hparts : List.Forall₂ SameNode children children' := hchildren rfl
      cases hparts with
      | nil => exact agree_throw _ _
      | @cons value value' rest rest' hvalue hrest =>
        cases hrest with
        | nil => exact agree_throw _ _
        | @cons target target' _ _ htarget _ =>
          have htargetRule := rule_target_of_bind hformed
          have hname := variableName_eq_of_unplaced
            (htarget.unplaced_eq (htargetRule ▸ rfl) (htargetRule ▸ rfl))
          refine (readExpr_same scope value value' hvalue).then fun _ => ?_
          dsimp only
          rw [hname]
          split
          · exact agree_refuse _ _ _ _
          · exact agree_pure rfl
    · -- `VALUES`
      exact (readData_same scope (hblocks rfl)).then fun _ => agree_pure rfl
    · exact agree_throw _ _
termination_by structural node

end

/-! ## Modifiers -/

/-- Sort keys that are the same are read alike. -/
theorem readOrderCondition_same (scope : IriScope) {node node' : Node} (h : SameNode node node')
    (hrule : node.rule = .orderCondition) :
    Agree Eq (readOrderCondition scope node) (readOrderCondition scope node') := by
  have hchildren := h.children (hrule ▸ rfl)
  have hdirectionRule := fun direction key =>
    @rule_direction_of_orderCondition node direction key h.1 hrule
  unfold readOrderCondition
  generalize node.children = children at hchildren hdirectionRule ⊢
  generalize node'.children = children' at hchildren ⊢
  match children, children', hchildren with
  | [], [], _ => exact agree_refuse _ _ _ _
  | [key], [key'], .cons hkey _ =>
    exact (readExpr_same scope key key' hkey).then fun _ => agree_pure rfl
  | [direction, key], [direction', key'], .cons hdirection (.cons hkey _) =>
    have hrule := hdirectionRule _ _ rfl
    have htext := text_eq_of_unplaced (hdirection.unplaced_eq (hrule ▸ rfl) (hrule ▸ rfl))
    dsimp only
    rw [htext]
    exact (readExpr_same scope key key' hkey).then fun _ => agree_pure rfl
  | _ :: _ :: _ :: _, _ :: _ :: _ :: _, _ => exact agree_refuse _ _ _ _

/-- Modifiers that are the same are read alike. -/
theorem readModifier_same (scope : IriScope) (done : Modifiers) {node node' : Node}
    (h : SameNode node node') :
    Agree Eq (readModifier scope done node) (readModifier scope done node') := by
  unfold readModifier
  rw [← h.rule_eq]
  split
  · exact agree_unsupported _ _
  · exact agree_unsupported _ _
  · rename_i hrule
    have hrules : ∀ child ∈ node.children, child.rule = .orderCondition := by
      intro child hchild
      have hmem := mem_calls_of_wrapsData h.1 (hrule ▸ rfl) child hchild
      rw [hrule] at hmem
      have hcalls : ∀ q ∈ (grammar.production .orderClause).body.calls, q = .orderCondition := by
        decide
      exact hcalls _ hmem
    have hkeys := (List.forall₂_and_left _ _).mpr ⟨hrules, h.children (hrule ▸ rfl)⟩
    refine (agree_mapM hkeys fun _ _ hkey => ?_).then fun _ => agree_pure rfl
    exact readOrderCondition_same scope hkey.2 hkey.1
  · rename_i hrule
    have hmoved := unplacedAll_children (h.unplaced_eq (hrule ▸ rfl) (hrule ▸ rfl))
    exact (readCount_moved hmoved).then fun _ => agree_pure rfl
  · rename_i hrule
    have hmoved := unplacedAll_children (h.unplaced_eq (hrule ▸ rfl) (hrule ▸ rfl))
    exact (readCount_moved hmoved).then fun _ => agree_pure rfl
  · exact agree_pure rfl

/-! ## Whole queries -/

/-- Parts of a query that are the same are read alike. -/
theorem readPart_same (scope : IriScope) (done : Body) {node node' : Node}
    (h : SameNode node node') :
    Agree Eq (readPart scope done node) (readPart scope done node') := by
  have hchildren := h.children
  have hplain := h.unplaced_eq
  unfold readPart
  rw [← h.rule_eq]
  split <;> rename_i hrule
  · exact agree_unsupported _ _
  · have hmoved := unplacedAll_children (hplain (hrule ▸ rfl) (hrule ▸ rfl))
    exact (readTemplate_moved scope true hmoved).then fun _ => agree_pure rfl
  · have hmoved := unplacedAll_children (hplain (hrule ▸ rfl) (hrule ▸ rfl))
    exact (readTemplate_moved scope false hmoved).then fun _ => agree_pure rfl
  · exact (readFirstGroup_same scope _ _ (hchildren (hrule ▸ rfl))).then fun _ => agree_pure rfl
  · have hmodifiers := hchildren (hrule ▸ rfl)
    refine (agree_foldlM hmodifiers (fun done _ _ => readModifier_same scope done) _).then ?_
    exact fun _ => agree_pure rfl
  · exact agree_pure rfl

/-- Columns that are the same are read alike. -/
theorem readItems_same (scope : IriScope) (inScope : List String) {nodes nodes' : List Node}
    (h : List.Forall₂ SameNode nodes nodes') (hrules : ∀ node ∈ nodes, node.rule = .selectItem) :
    Agree Eq (readItems scope inScope nodes) (readItems scope inScope nodes') := by
  induction h generalizing inScope with
  | nil => exact agree_refl _
  | @cons node node' rest rest' hnode _ ih =>
    have hrule := hrules node List.mem_cons_self
    have ih := fun inScope => ih inScope fun n hn => hrules n (List.mem_cons_of_mem _ hn)
    have hchildren := hnode.children (hrule ▸ rfl)
    have hshape := rules_of_selectItem hnode.1 hrule
    unfold readItems
    generalize node.children = children at hchildren hshape ⊢
    generalize node'.children = children' at hchildren ⊢
    cases hchildren with
    | nil => exact agree_refuse _ _ _ _
    | @cons first _ _ _ hfirst hothers =>
      cases hothers with
      | nil =>
        have htargetRule : first.rule = .var := by simpa using hshape
        have hname := variableName_eq_of_unplaced
          (hfirst.unplaced_eq (htargetRule ▸ rfl) (htargetRule ▸ rfl))
        dsimp only
        rw [hname]
        split
        · exact (ih inScope).then fun _ => agree_pure rfl
        · exact agree_throw _ _
      | @cons target _ _ _ htarget hmore =>
        cases hmore with
        | nil =>
          have htargetRule : target.rule = .var := by
            have hboth : first.rule = .expression ∧ target.rule = .var := by simpa using hshape
            exact hboth.2
          have hname := variableName_eq_of_unplaced
            (htarget.unplaced_eq (htargetRule ▸ rfl) (htargetRule ▸ rfl))
          refine (readExpr_same scope _ _ hfirst).then fun _ => ?_
          dsimp only
          rw [hname]
          split
          · exact agree_refuse _ _ _ _
          · exact (ih _).then fun _ => agree_pure rfl
        | cons _ _ => exact agree_refuse _ _ _ _

/-- Whether repeated rows are dropped is the same. -/
theorem readDuplicates_same {nodes nodes' : List Node} (h : List.Forall₂ SameNode nodes nodes') :
    readDuplicates nodes = readDuplicates nodes' := by
  unfold readDuplicates
  induction h with
  | nil => rfl
  | @cons node node' _ _ hnode _ ih =>
    rw [List.find?_cons, List.find?_cons, ← hnode.rule_eq]
    cases hrule : node.rule == Symbol.duplicates with
    | false => exact ih
    | true =>
      have hplain : node.rule = .duplicates := eq_of_beq hrule
      have hmoved := hnode.unplaced_eq (hplain ▸ rfl) (hplain ▸ rfl)
      dsimp only
      rw [text_eq_of_unplaced hmoved]

/-- Of nodes that are the same, the rules decide alike which are found. -/
theorem any_rule_same (is : Symbol → Bool) {nodes nodes' : List Node}
    (h : List.Forall₂ SameNode nodes nodes') :
    (nodes.any fun node => is node.rule) = nodes'.any fun node => is node.rule := by
  induction h with
  | nil => rfl
  | cons hnode _ ih => rw [List.any_cons, List.any_cons, ih, hnode.rule_eq]

/-- Tables that are the same are read alike. -/
theorem readSelect_same (scope : IriScope) (inScope : List String) {clause clause' : List Node}
    (h : List.Forall₂ SameNode clause clause') :
    Agree Eq (readSelect scope inScope clause) (readSelect scope inScope clause') := by
  have hitems := forall₂_filter (fun _ _ => SameNode.rule_eq) (· == .selectItem) h
  have hrules : ∀ node ∈ clause.filter fun node => node.rule == .selectItem,
      node.rule = .selectItem := fun node hnode => eq_of_beq (List.mem_filter.mp hnode).2
  unfold readSelect
  rw [readDuplicates_same h, any_rule_same (· == .allColumns) h]
  exact (readItems_same scope inScope hitems hrules).then fun _ => agree_pure rfl

/-- The children of the nodes of a rule are related if they are for each of these nodes. -/
theorem forall₂_childrenOf (rule : Symbol) {related : Node → Node → Prop}
    (hrelated : ∀ node node', SameNode node node' → node.rule = rule →
      List.Forall₂ related node.children node'.children) {nodes nodes' : List Node}
    (h : List.Forall₂ SameNode nodes nodes') :
    List.Forall₂ related
      ((nodes.filter fun node => node.rule == rule).flatMap ParseTree.children)
      ((nodes'.filter fun node => node.rule == rule).flatMap ParseTree.children) := by
  have hrules : ∀ node ∈ nodes.filter fun node => node.rule == rule, node.rule = rule :=
    fun node hnode => eq_of_beq (List.mem_filter.mp hnode).2
  have hfiltered := forall₂_filter (fun _ _ => SameNode.rule_eq) (· == rule) h
  refine List.rel_flatMap ((List.forall₂_and_left _ _).mpr ⟨hrules, hfiltered⟩) ?_
  exact fun node node' hnode => hrelated node node' hnode.2 hnode.1

/-- Queries that are the same are read alike, without their prologue. -/
theorem readForm_same (scope : IriScope) (data : Option DataBlock) {node node' : Node}
    (h : SameNode node node') :
    Agree Eq (readForm scope data node) (readForm scope data node') := by
  have hbody : isData node.rule = false → Agree Eq
      (node.children.foldlM (readPart scope) ⟨[], .empty, .none⟩)
      (node'.children.foldlM (readPart scope) ⟨[], .empty, .none⟩) :=
    fun hdata => agree_foldlM (h.children hdata) (fun done _ _ => readPart_same scope done) _
  have hclause : isData node.rule = false → List.Forall₂ SameNode
      ((node.children.filter fun child => child.rule == .selectClause).flatMap ParseTree.children)
      ((node'.children.filter fun child => child.rule == .selectClause).flatMap
        ParseTree.children) := fun hdata =>
    forall₂_childrenOf .selectClause (fun _ _ h hrule => h.children (hrule ▸ rfl))
      (h.children hdata)
  unfold readForm
  rw [← h.rule_eq]
  generalize node.rule = rule at hbody hclause ⊢
  split
  · refine (hbody rfl).then fun body => ?_
    exact (readSelect_same scope _ (hclause rfl)).then fun _ => agree_pure rfl
  · exact (hbody rfl).then fun _ => agree_pure rfl
  · rename_i hselect hask
    split
    · exact (hselect rfl).elim
    · exact (hask rfl).elim
    · exact (hbody rfl).then fun _ => agree_pure rfl
    · exact agree_throw _ _
    · exact agree_throw _ _
    · exact agree_throw _ _

/-- Queries that are the same are read alike. -/
theorem readParts_same {nodes nodes' : List Node} (h : List.Forall₂ SameNode nodes nodes') :
    Agree Eq (readParts nodes) (readParts nodes') := by
  have hprologue := forall₂_childrenOf .prologue
    (fun _ _ h hrule => forall₂_of_unplacedAll
      (unplacedAll_children (h.unplaced_eq (hrule ▸ rfl) (hrule ▸ rfl)))) h
  have hvalues := forall₂_childrenOf .valuesClause (fun _ _ h hrule => h.blocks (hrule ▸ rfl)) h
  have hrest := List.forall₂_drop 1 h
  unfold readParts
  refine (readPrologue_moved _ hprologue).then fun scope => ?_
  extract_lets rest rest'
  have hform : ∀ data, Agree Eq (rest data) (rest' data) := by
    intro data
    dsimp only [rest, rest']
    generalize nodes.drop 1 = nodes at hrest ⊢
    generalize nodes'.drop 1 = nodes' at hrest ⊢
    cases hrest with
    | nil => exact agree_throw _ _
    | cons hform _ => exact (readForm_same scope data hform).then fun q => agree_refl _
  have hdata := readData_same scope hvalues
  dsimp only
  generalize List.flatMap ParseTree.children _ = blocks at hvalues hdata ⊢
  generalize List.flatMap ParseTree.children _ = blocks' at hvalues hdata ⊢
  cases hvalues with
  | nil => exact (agree_pure rfl).then hform
  | cons _ _ => exact hdata.then fun _ => (agree_pure rfl).then hform

end RdfStore.Query
