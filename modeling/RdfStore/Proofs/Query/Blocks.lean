import RdfStore.Proofs.Outcome
import RdfStore.Proofs.Query.Collections
import RdfStore.Proofs.Query.Parts
import RdfStore.Proofs.Query.Precedence

/-!
# Blocks of a query

Every block of triples in the text of a query that is read is in the query: as a block of one of
its groups at any depth, or as its template. Blocks stand in groups, groups in `EXISTS` and so in
expressions, and those in filters, columns and sort keys, and the walk passes none of them by.
-/

set_option autoImplicit false

namespace RdfStore.Query

open RdfStore.Peg RdfStore.Syntax

variable {number : Spot → Nat} {scope : IriScope} {inTemplate : Bool} {ps : List Pattern}
  {place : Path} {i : Nat} {node : Node} {nodes : List Node} {rule : Symbol} {start : Nat}
  {text : List Char} {children : List Node}

/-! ## Where a block is -/

/-- The patterns are a block of a group in the part, outside of templates. -/
def Part.HasBlock (p : Part) (inTemplate : Bool) (ps : List Pattern) : Prop :=
  inTemplate = false ∧ ∃ g, p.Within (.group g) ∧ Element.triples ps ∈ g.elements

/-- The patterns are an element, or a block in one of its parts. -/
def Element.HasBlock (element : Element) (inTemplate : Bool) (ps : List Pattern) : Prop :=
  inTemplate = false ∧ element = .triples ps ∨ ∃ p ∈ element.parts, p.HasBlock inTemplate ps

/-- A block inside a part is a block of the part. -/
theorem Part.HasBlock.of_inside {p q : Part} (hq : q ∈ p.inside) (h : q.HasBlock inTemplate ps) :
    p.HasBlock inTemplate ps := by
  obtain ⟨houtside, g, hwithin, hmem⟩ := h
  exact ⟨houtside, g, hwithin.of_inside hq, hmem⟩

/-- A block of an element is a block of the group. -/
theorem hasBlock_of_element {elements : List Element} {element : Element}
    (hmem : element ∈ elements) (h : element.HasBlock inTemplate ps) :
    (Part.group (.mk elements)).HasBlock inTemplate ps := by
  rcases h with ⟨houtside, rfl⟩ | ⟨p, hp, hblock⟩
  · exact ⟨houtside, .mk elements, .self, hmem⟩
  · exact hblock.of_inside (List.mem_flatMap.mpr ⟨element, hmem, hp⟩)

/-- A block of a group inside an element is a block of the element. -/
theorem hasBlock_of_group {g : Group} {element : Element} (hparts : .group g ∈ element.parts)
    (h : (Part.group g).HasBlock inTemplate ps) : element.HasBlock inTemplate ps :=
  .inr ⟨_, hparts, h⟩

/-- The rules of blocks. -/
def isBlock (rule : Symbol) : Bool := rule == .triplesBlock || rule == .templateTriples

/-- What the block at a place says is somewhere. -/
def IsFound (number : Spot → Nat) (scope : IriScope) (has : Bool → List Pattern → Prop)
    (place : Path) (node : Node) : Prop :=
  ∃ inTemplate ps, saidBlocks number scope inTemplate place 0 node.children = .means () ps ∧
    has inTemplate ps

/-- All blocks in a node are found. -/
abbrev AreFound (number : Spot → Nat) (scope : IriScope) (has : Bool → List Pattern → Prop) :
    Path → Node → Prop :=
  HoldsIn isBlock (IsFound number scope has)

/-- So are those in the children of a node from a position on. -/
abbrev AreAllFound (number : Spot → Nat) (scope : IriScope) (has : Bool → List Pattern → Prop) :
    Path → Nat → List Node → Prop :=
  HoldsBehind isBlock (IsFound number scope has)

variable {has has' : Bool → List Pattern → Prop}

/-- Blocks that are found for one owner are found for any owner that has them too. -/
theorem IsFound.imp (hle : ∀ inTemplate ps, has inTemplate ps → has' inTemplate ps) (place : Path)
    (node : Node) (h : IsFound number scope has place node) :
    IsFound number scope has' place node := by
  obtain ⟨inTemplate, ps, hsaid, hhas⟩ := h
  exact ⟨inTemplate, ps, hsaid, hle inTemplate ps hhas⟩

/-- The rules that no block is part of. -/
def isBlockFree : Symbol → Bool
  | .query | .selectQuery | .selectClause | .selectItem | .constructQuery | .template
  | .templateAsPattern | .templateTriples | .askQuery | .whereClause | .modifiers | .groupClause
  | .groupCondition | .havingClause | .orderClause | .orderCondition | .group | .subquery
  | .groupContent | .triplesBlock | .unionPattern | .optionalPattern | .minusPattern
  | .graphPattern | .servicePattern | .filter | .bind | .expression | .memberOp _
  | .expressionList | .exists _ | .builtinCall | .iriOrCall | .arguments => false
  | _ => true

/-- The rules without blocks call only each other. -/
theorem isClosed_isBlockFree : grammar.IsClosed isBlockFree := by
  intro rule hrule
  cases rule with
  | terminal t => cases t <;> rfl
  | _ => first | rfl | cases hrule

/-- In a node without blocks there is nothing to find. -/
theorem areFound_of_isFree (hformed : IsFormed grammar node) (hfree : isBlockFree node.rule = true) :
    AreFound number scope has place node := by
  refine holdsIn_of_isFree isClosed_isBlockFree (fun rule hrule => ?_) hformed hfree
  cases rule <;> first | rfl | cases hrule

/-- In nodes without blocks there is nothing to find. -/
theorem areAllFound_of_isFree
    (h : ∀ node ∈ nodes, IsFormed grammar node ∧ isBlockFree node.rule = true) :
    AreAllFound number scope has place i nodes := by
  intro j child hchild
  obtain ⟨hformed, hfree⟩ := h child (List.mem_of_getElem? hchild)
  exact areFound_of_isFree hformed hfree

/-- Constants have no blocks. -/
theorem isFree_of_saidBy {t : Term} (h : saidBy (readTerm scope node) = .means t ps) :
    isBlockFree node.rule = true := by
  have hplain := isPlain_of_saidBy h
  generalize node.rule = rule at hplain ⊢
  cases rule <;> first | rfl | cases hplain

/-! ## The shape of groups and expressions -/

/-- An expression list, or the arguments of a call, has expressions or the mark of an empty list. -/
theorem rules_of_arguments (hrule : rule = .expressionList ∨ rule = .arguments)
    (h : IsFormed grammar (.node rule start text children)) :
    ∀ child ∈ children, child.rule = .expression ∨ isBlockFree child.rule = true := by
  have hcalls : ∀ r ∈ (grammar.production rule).body.calls,
      (grammar.production r).manner ≠ .silent ∧ (r = .expression ∨ isBlockFree r = true) := by
    rcases hrule with rfl | rfl <;> decide
  have hwords : (grammar.production rule).manner = .words := by
    rcases hrule with rfl | rfl <;> rfl
  exact fun child hchild =>
    (hcalls _ (h.mem_calls hwords (fun r hr => (hcalls r hr).1) child hchild)).2

/-- A call of a function has its name first. -/
theorem rules_of_builtinCall {name : Node} {args : List Node}
    (h : IsFormed grammar (.node .builtinCall start text (name :: args))) :
    isBlockFree name.rule = true ∧
      ∀ arg ∈ args, arg.rule = .expression ∨ isBlockFree arg.rule = true := by
  have hcalls : ∀ r ∈ (grammar.production .builtinCall).body.calls,
      (grammar.production r).manner ≠ .silent ∧ (r = .expression ∨ isBlockFree r = true) := by
    decide
  have hmem := h.mem_calls rfl fun r hr => (hcalls r hr).1
  refine ⟨?_, fun arg harg => (hcalls _ (hmem arg (List.mem_cons_of_mem name harg))).2⟩
  obtain ⟨first, rest, hfirst, hrule⟩ := h.exists_first rfl rfl nofun
  rw [(List.cons.inj hfirst).1, hrule]
  rfl

/-- A name is called with arguments or stands alone. -/
theorem rules_of_iriOrCall {name : Node} {rest : List Node}
    (h : IsFormed grammar (.node .iriOrCall start text (name :: rest))) :
    isBlockFree name.rule = true ∧ (rest = [] ∨ ∃ args, rest = [args] ∧ args.rule = .arguments) := by
  have hshape : (name :: rest).map ParseTree.rule ∈
      Symbol.iri.calls.flatMap fun r => [[r, .arguments], [r]] := h.shape rfl (by decide) rfl
  obtain ⟨r, hr, hshape⟩ := List.mem_flatMap.mp hshape
  have hfree : ∀ r ∈ Symbol.iri.calls, isBlockFree r = true := by decide
  simp only [List.mem_cons, List.not_mem_nil, or_false, List.map_cons, List.cons.injEq] at hshape
  rcases hshape with ⟨hname, hrest⟩ | ⟨hname, hrest⟩
  · exact ⟨hname ▸ hfree r hr, .inr (eq_singleton_of_map_rule hrest)⟩
  · exact ⟨hname ▸ hfree r hr, .inl (List.map_eq_nil_iff.mp hrest)⟩

/-- A membership has one list. -/
theorem children_of_memberOp {negated : Bool}
    (h : IsFormed grammar (.node (.memberOp negated) start text children)) :
    ∃ list, children = [list] ∧ list.rule = .expressionList := by
  have hshape : children.map ParseTree.rule ∈ [[Symbol.expressionList]] := by
    cases negated <;> exact h.shape rfl (by decide) rfl
  exact eq_singleton_of_map_rule (List.mem_singleton.mp hshape)

/-- The rules of nodes with one group. -/
def isAroundGroup : Symbol → Bool
  | .exists _ | .optionalPattern | .minusPattern | .whereClause => true
  | _ => false

/-- A node around a group has this group for its only child. -/
theorem children_of_isAroundGroup (hrule : isAroundGroup rule = true)
    (h : IsFormed grammar (.node rule start text children)) :
    ∃ group, children = [group] ∧ group.rule = .group := by
  have hshape : children.map ParseTree.rule ∈ [[Symbol.group]] := by
    cases rule with
    | «exists» negated => cases negated <;> exact h.shape rfl (by decide) rfl
    | optionalPattern | minusPattern => exact h.shape rfl (by decide) rfl
    | whereClause =>
      -- with its keyword or without
      have hboth : children.map ParseTree.rule ∈ [[Symbol.group], [.group]] :=
        h.shape rfl (by decide) rfl
      simpa using hboth
    | _ => cases hrule
  exact eq_singleton_of_map_rule (List.mem_singleton.mp hshape)

/-- Between braces there is one node. -/
theorem children_of_group (h : IsFormed grammar (.node .group start text children)) :
    ∃ child, children = [child] ∧ child.rule ∈ [Symbol.subquery, .groupContent] := by
  have hshape : children.map ParseTree.rule ∈ [[Symbol.subquery], [.groupContent]] :=
    h.shape rfl (by decide) rfl
  simp only [List.mem_cons, List.not_mem_nil, or_false] at hshape
  rcases hshape with hshape | hshape <;>
    obtain ⟨child, hone, hrule⟩ := eq_singleton_of_map_rule hshape
  · exact ⟨child, hone, by simp [hrule]⟩
  · exact ⟨child, hone, by simp [hrule]⟩

/-- The branches of a union are groups. -/
theorem rules_of_unionPattern (h : IsFormed grammar (.node .unionPattern start text children)) :
    ∀ child ∈ children, child.rule = .group := by
  have hcalls : ∀ r ∈ (grammar.production .unionPattern).body.calls,
      (grammar.production r).manner ≠ .silent ∧ r = .group := by decide
  exact fun child hchild => (hcalls _ (h.mem_calls rfl (fun r hr => (hcalls r hr).1) child hchild)).2

/-- A filter has one condition. -/
theorem children_of_filter {condition : Node} {rest : List Node}
    (h : IsFormed grammar (.node .filter start text (condition :: rest))) : rest = [] := by
  have hshape : (condition :: rest).map ParseTree.rule ∈ Symbol.constraint.calls.map ([·]) :=
    h.shape rfl (by decide) rfl
  obtain ⟨r, -, hone⟩ := List.mem_map.mp hshape
  exact List.map_eq_nil_iff.mp (List.cons.inj hone).2.symm

/-- An assignment has a value and a target. -/
theorem children_of_bind {value target : Node} {rest : List Node}
    (h : IsFormed grammar (.node .bind start text (value :: target :: rest))) :
    isBlockFree target.rule = true ∧ rest = [] := by
  have hshape : (value :: target :: rest).map ParseTree.rule ∈ [[Symbol.expression, .var]] :=
    h.shape rfl (by decide) rfl
  simp only [List.mem_singleton, List.map_cons, List.cons.injEq, List.map_eq_nil_iff] at hshape
  obtain ⟨-, htarget, hrest⟩ := hshape
  rw [htarget]
  exact ⟨rfl, hrest⟩

/-! ## Expressions and groups -/

/-- One of some results has a block. -/
def OneHas {α : Type} (holds : α → Bool → List Pattern → Prop) (results : List α)
    (inTemplate : Bool) (ps : List Pattern) : Prop := ∃ a ∈ results, holds a inTemplate ps

/-- Each of some nodes has its blocks in its own part. -/
theorem areAllFound_cons {α : Type} {holds : α → Bool → List Pattern → Prop} {a : α} {more : List α}
    (h : AreFound number scope (holds a) (i :: place) node)
    (hmore : AreAllFound number scope (OneHas holds more) place (i + 1) nodes) :
    AreAllFound number scope (OneHas holds (a :: more)) place i (node :: nodes) := by
  refine holdsBehind_cons (h.mono (IsFound.imp fun _ _ h => ⟨a, List.mem_cons_self, h⟩)) ?_
  exact hmore.mono (IsFound.imp fun _ _ ⟨b, hb, h⟩ => ⟨b, List.mem_cons_of_mem a hb, h⟩)

/-- A node without blocks can be passed over. -/
theorem areAllFound_skip (hformed : IsFormed grammar node) (hfree : isBlockFree node.rule = true)
    (hmore : AreAllFound number scope has place (i + 1) nodes) :
    AreAllFound number scope has place i (node :: nodes) :=
  holdsBehind_cons (areFound_of_isFree hformed hfree) hmore

/-- An expression that was read, if it was, has a block. -/
def GivesBlock (inTemplate : Bool) (ps : List Pattern) (r : Except Failure Expr) : Prop :=
  ∀ e, r = .ok e → (Part.expr e).HasBlock inTemplate ps

/-- No expression was read. -/
def Fails (r : Except Failure Expr) : Prop := ∀ e, r ≠ .ok e

/-- Unless one of them fails, the parts of an expression have the blocks of some nodes between them;
and memberships keep blocks and failures. -/
structure TokensFound (number : Spot → Nat) (scope : IriScope) (place : Path) (i : Nat)
    (nodes : List Node) (tokens : List (Precedence.Token (Except Failure Expr))) : Prop where
  keeps : ∀ token ∈ tokens, token.Keeps Fails ∧
    ∀ inTemplate ps, token.Keeps (GivesBlock inTemplate ps)
  found : (∃ token ∈ tokens, token.Gives Fails) ∨ AreAllFound number scope
    (OneHas (fun token inTemplate ps => token.Gives (GivesBlock inTemplate ps)) tokens) place i nodes

/-- Tokens are found one by one: each has the blocks of its node, or reading fails. -/
theorem TokensFound.cons {token : Precedence.Token (Except Failure Expr)}
    {tokens : List (Precedence.Token (Except Failure Expr))}
    (h : TokensFound number scope place (i + 1) nodes tokens)
    (hkeeps : token.Keeps Fails ∧ ∀ inTemplate ps, token.Keeps (GivesBlock inTemplate ps))
    (hfound : token.Gives Fails ∨ AreFound number scope
      (fun inTemplate ps => token.Gives (GivesBlock inTemplate ps)) (i :: place) node) :
    TokensFound number scope place i (node :: nodes) (token :: tokens) where
  keeps t ht := (List.mem_cons.mp ht).elim (fun heq => heq ▸ hkeeps) (h.keeps t)
  found := by
    rcases hfound with hfails | hfound
    · exact .inl ⟨token, List.mem_cons_self, hfails⟩
    · rcases h.found with ⟨t, ht, hfails⟩ | hmore
      · exact .inl ⟨t, List.mem_cons_of_mem token ht, hfails⟩
      · exact .inr (areAllFound_cons hfound hmore)

/-- Operators keep failures. -/
theorem builder_fails :
    (∀ op r, Fails r → Fails (builder.unary op r)) ∧
      (∀ op r s, Fails r → Fails (builder.binary op r s)) ∧
        ∀ op r s, Fails s → Fails (builder.binary op r s) := by
  refine ⟨fun op r h e he => ?_, fun op r s h e he => ?_, fun op r s h e he => ?_⟩
  · obtain ⟨operand, hoperand, -⟩ := bind_eq_ok he
    exact h operand hoperand
  · obtain ⟨left, hleft, -⟩ := bind_eq_ok he
    exact h left hleft
  · obtain ⟨left, -, hright⟩ := bind_eq_ok he
    obtain ⟨right, hright, -⟩ := bind_eq_ok hright
    exact h right hright

/-- Operators keep the blocks of their operands. -/
theorem builder_givesBlock (inTemplate : Bool) (ps : List Pattern) :
    (∀ op r, GivesBlock inTemplate ps r → GivesBlock inTemplate ps (builder.unary op r)) ∧
      (∀ op r s, GivesBlock inTemplate ps r → GivesBlock inTemplate ps (builder.binary op r s)) ∧
        ∀ op r s, GivesBlock inTemplate ps s → GivesBlock inTemplate ps (builder.binary op r s) := by
  refine ⟨fun op r h e he => ?_, fun op r s h e he => ?_, fun op r s h e he => ?_⟩
  · obtain ⟨operand, rfl, hunary⟩ := bind_eq_ok he
    cases hunary
    exact (h operand rfl).of_inside List.mem_cons_self
  · obtain ⟨left, rfl, hright⟩ := bind_eq_ok he
    obtain ⟨right, rfl, hbinary⟩ := bind_eq_ok hright
    cases hbinary
    exact (h left rfl).of_inside List.mem_cons_self
  · obtain ⟨left, rfl, hright⟩ := bind_eq_ok he
    obtain ⟨right, rfl, hbinary⟩ := bind_eq_ok hright
    cases hbinary
    exact (h right rfl).of_inside (List.mem_cons_of_mem _ List.mem_cons_self)

/-- The tree of the parts of an expression has all their blocks. -/
theorem TokensFound.combine {tokens : List (Precedence.Token (Except Failure Expr))} {e : Expr}
    (h : TokensFound number scope place i nodes tokens)
    (hcombine : Precedence.combine builder tokens = some (.ok e)) :
    AreAllFound number scope (Part.expr e).HasBlock place i nodes := by
  rcases h.found with hfails | hfound
  · obtain ⟨hunary, hleft, hright⟩ := builder_fails
    have hkeeps := fun token htoken => (h.keeps token htoken).1
    exact absurd rfl (Precedence.combine_gives hunary hleft hright hkeeps hfails hcombine e)
  · refine hfound.mono (IsFound.imp fun inTemplate ps hone => ?_)
    obtain ⟨hunary, hleft, hright⟩ := builder_givesBlock inTemplate ps
    have hkeeps := fun token htoken => (h.keeps token htoken).2 inTemplate ps
    exact Precedence.combine_gives hunary hleft hright hkeeps hone hcombine e rfl

/-- A membership, of items that were read if they were. -/
def membership (negated : Bool) (items : Except Failure (List Expr)) (operand : Except Failure Expr) :
    Except Failure Expr := do
  let items ← items
  return .member negated (← operand) items

/-- A membership keeps failures and blocks of its operand. -/
theorem keeps_membership (negated : Bool) (items : Except Failure (List Expr)) :
    (Precedence.Token.after (membership negated items)).Keeps Fails ∧
      ∀ inTemplate ps, (Precedence.Token.after (membership negated items)).Keeps
        (GivesBlock inTemplate ps) := by
  refine ⟨fun operand h e he => ?_, fun inTemplate ps operand h e he => ?_⟩
  · obtain ⟨_, -, he⟩ := bind_eq_ok he
    obtain ⟨e', he', -⟩ := bind_eq_ok he
    exact h e' he'
  · obtain ⟨_, -, he⟩ := bind_eq_ok he
    obtain ⟨e', rfl, hmember⟩ := bind_eq_ok he
    cases hmember
    exact (h e' rfl).of_inside List.mem_cons_self

/-- It fails if its items do, and else it has their blocks. -/
theorem gives_membership (negated : Bool) (items : Except Failure (List Expr))
    (hfound : ∀ es, items = .ok es →
      AreFound number scope (OneHas (fun e => (Part.expr e).HasBlock) es) place node) :
    (Precedence.Token.after (membership negated items)).Gives Fails ∨ AreFound number scope
      (fun inTemplate ps => (Precedence.Token.after (membership negated items)).Gives
        (GivesBlock inTemplate ps)) place node := by
  cases items with
  | error f => exact .inl nofun
  | ok es =>
    refine .inr ((hfound es rfl).mono (IsFound.imp fun inTemplate ps hone operand e he => ?_))
    obtain ⟨item, hitem, hblock⟩ := hone
    obtain ⟨e', rfl, hmember⟩ := bind_eq_ok he
    cases hmember
    exact hblock.of_inside (List.mem_cons_of_mem _ (List.mem_map_of_mem hitem))

/-- The blocks of the arguments of a call are in the call. -/
theorem hasBlock_of_args {function : Function} {args : List Expr}
    (h : OneHas (fun e => (Part.expr e).HasBlock) args inTemplate ps) :
    (Part.expr (.call function args)).HasBlock inTemplate ps := by
  obtain ⟨arg, harg, hblock⟩ := h
  exact hblock.of_inside (List.mem_map_of_mem harg)

/-- The call of a function by its name is this call. -/
theorem eq_call_of_builtinCall {start : Nat} {name : String} {args : List Expr}
    {function : Function} {e : Expr} (h : builtinCall start name args function = .ok e) :
    e = .call function args := by
  unfold builtinCall at h
  split at h
  · cases h
  · split at h <;> cases h <;> rfl

/-- The call of a cast is this call. -/
theorem eq_call_of_castCall {start : Nat} {target : CastTarget} {args : List Expr} {e : Expr}
    (h : castCall start target args = .ok e) : e = .call (.cast target) args := by
  unfold castCall at h
  split at h <;> cases h
  rfl

/-- Where an expression takes its arguments from, and what is found there. -/
def ArgumentsFound (scope : IriScope) (place : Path) (i : Nat) (nodes : List Node) : Prop :=
  Follows (readExprs scope nodes) (Spot.IsBehind place i) fun number es =>
    AreAllFound number scope (OneHas (fun e => (Part.expr e).HasBlock) es) place i nodes

/-- The blocks in the arguments of a function are in its call. -/
theorem follows_namedCall {name : Node} {args : List Node}
    (hformed : IsFormed grammar (.node .builtinCall start text (name :: args)))
    (hread : ArgumentsFound scope place 1 args) :
    Follows (match Function.ofName? name.string with
      | none => unsupported (.builtin (Text.asciiUpperString name.string))
      | some function => do
        let es ← readExprs scope args
        ExceptT.mk (pure (builtinCall start name.string es function))) (Spot.IsInside place)
      fun number e => AreFound number scope (Part.expr e).HasBlock place
        (.node .builtinCall start text (name :: args)) := by
  split
  · exact follows_throw _
  · rename_i function _
    have hcall : ∀ es, Follows (ExceptT.mk (pure (builtinCall start name.string es function)))
        noSpot fun _ e => e = .call function es :=
      fun es => follows_mk fun e he _ => eq_call_of_builtinCall he
    refine ((hread.finish hcall).mono fun _ h => h.inside).imp ?_
    rintro number _ ⟨es, hfound, rfl⟩
    have hname := (rules_of_builtinCall hformed).1
    refine HoldsBehind.holdsIn
      (areAllFound_skip (hformed.children _ List.mem_cons_self) hname ?_) nofun
    exact hfound.mono (IsFound.imp fun _ _ => hasBlock_of_args)

/-- A name alone has no blocks. -/
theorem follows_name {name : Node}
    (hformed : IsFormed grammar (.node .iriOrCall start text [name])) :
    Follows (take (scope.iri Symbol.terminal? name) >>= fun iri => pure (.const (.iri iri)))
      (Spot.IsInside place) fun number e => AreFound number scope (Part.expr e).HasBlock place
        (.node .iriOrCall start text [name]) := by
  have htake := (isSteady_take (scope.iri Symbol.terminal? name)).follows
  refine ((htake.mono fun _ h => h.elim).last fun iri => Expr.const (.iri iri)).imp ?_
  rintro number _ -
  have hname := hformed.children name List.mem_cons_self
  exact (areAllFound_skip hname (rules_of_iriOrCall hformed).1 holdsBehind_nil).holdsIn nofun

/-- Behind the name of a cast stand its arguments. -/
theorem rule_of_castArguments {name args : Node} {rest : List Node}
    (h : IsFormed grammar (.node .iriOrCall start text (name :: args :: rest))) :
    args.rule = .arguments := by
  obtain ⟨-, hnone | ⟨_, hone, hrule⟩⟩ := rules_of_iriOrCall h
  · cases hnone
  · rw [(List.cons.inj hone).1, hrule]

/-- The blocks in the argument of a cast are in the cast. -/
theorem follows_cast {name : Node} {items rest : List Node} {r : Symbol} {s : Nat} {t : List Char}
    (hformed : IsFormed grammar (.node .iriOrCall start text (name :: .node r s t items :: rest)))
    (hread : ArgumentsFound scope (1 :: place) 0 items) :
    Follows (take (scope.iri Symbol.terminal? name) >>= fun iri =>
      match Function.castOf? iri with
      | none => unsupported (.external iri)
      | some target => do
        let es ← readExprs scope items
        ExceptT.mk (pure (castCall start target es))) (Spot.IsInside place)
      fun number e => AreFound number scope (Part.expr e).HasBlock place
        (.node .iriOrCall start text (name :: .node r s t items :: rest)) := by
  obtain ⟨hname, hnone | ⟨args, hone, hargs⟩⟩ := rules_of_iriOrCall hformed
  · cases hnone
  obtain ⟨rfl, rfl⟩ := List.cons.inj hone
  obtain rfl : r = .arguments := hargs
  have hcall : ∀ iri, Follows (match Function.castOf? iri with
      | none => unsupported (.external iri)
      | some target => do
        let es ← readExprs scope items
        ExceptT.mk (pure (castCall start target es))) (Spot.IsInside place) fun number e =>
      ∃ target es, e = .call (.cast target) es ∧ AreAllFound number scope
        (OneHas (fun e => (Part.expr e).HasBlock) es) (1 :: place) 0 items := by
    intro iri
    split
    · exact follows_throw _
    · rename_i target _
      have hcast : ∀ es, Follows (ExceptT.mk (pure (castCall start target es))) noSpot
          fun _ e => e = .call (.cast target) es :=
        fun es => follows_mk fun e he _ => eq_call_of_castCall he
      refine ((hread.finish hcast).mono fun _ h => h.inside.behind.inside).imp ?_
      rintro number e ⟨es, hfound, he⟩
      exact ⟨target, es, he, hfound⟩
  refine ((isSteady_take (scope.iri Symbol.terminal? name)).follows.then hcall).imp ?_
  rintro number _ ⟨iri, -, target, es, rfl, hfound⟩
  refine HoldsBehind.holdsIn
    (areAllFound_skip (hformed.children name List.mem_cons_self) hname ?_) nofun
  refine holdsBehind_cons (HoldsBehind.holdsIn ?_ nofun) holdsBehind_nil
  exact hfound.mono (IsFound.imp fun _ _ => hasBlock_of_args)

/-- A block of a group is an element of it. -/
theorem follows_triples (hformed : IsFormed grammar (.node .triplesBlock start text children)) :
    Follows (readBlocks scope false children >>= fun patterns => pure (Element.triples patterns))
      (Spot.IsInside place) fun number element => AreFound number scope element.HasBlock place
        (.node .triplesBlock start text children) := by
  refine (((readBlocks_follows scope false place children).last Element.triples).mono
    fun _ h => h.inside).imp ?_
  rintro number _ ⟨patterns, hsaid, rfl⟩
  refine HoldsBehind.holdsIn (areAllFound_of_isFree fun child hchild => ?_) fun _ =>
    ⟨false, patterns, hsaid, .inl ⟨rfl, rfl⟩⟩
  refine ⟨hformed.children child hchild, ?_⟩
  rw [children_of_block (.inl rfl) hformed child hchild]
  rfl

/-- The blocks of the one group of an element are in the element. -/
theorem follows_aroundGroup (hrule : isBlock rule = false)
    (hread : Follows (readFirstGroup scope children) (Spot.IsBehind place 0) fun number g =>
      AreAllFound number scope (Part.group g).HasBlock place 0 children)
    (element : Group → Element) (hparts : ∀ g, .group g ∈ (element g).parts) :
    Follows (readFirstGroup scope children >>= fun g => pure (element g)) (Spot.IsInside place)
      fun number e => AreFound number scope e.HasBlock place (.node rule start text children) := by
  refine ((hread.last element).mono fun _ h => h.inside).imp ?_
  rintro number _ ⟨g, hfound, rfl⟩
  refine HoldsBehind.holdsIn (hfound.mono (IsFound.imp fun _ _ hblock => ?_)) fun hmeant => ?_
  · exact hasBlock_of_group (hparts g) hblock
  · exact absurd hmeant (Bool.eq_false_iff.mp hrule)

mutual

/-- The blocks in an expression are in what is read of it. -/
theorem readExpr_finds (scope : IriScope) (place : Path) : ∀ node : Node,
    IsFormed grammar node → Follows (readExpr scope node) (Spot.IsInside place) fun number e =>
      AreFound number scope (Part.expr e).HasBlock place node
  | .node rule start text children, hformed => by
    have hchildren := hformed.children
    unfold readExpr
    split
    · -- operators and their operands
      have hcombine : ∀ tokens, Follows (match Precedence.combine builder tokens with
          | some result => ExceptT.mk (pure result)
          | none => throw (.refused start .unexpected)) noSpot fun _ e =>
            Precedence.combine builder tokens = some (.ok e) := by
        intro tokens
        split
        · rename_i hresult
          exact follows_mk fun e he _ => by rw [hresult, he]
        · exact follows_throw _
      refine (((readTokens_finds scope place 0 children hchildren).finish hcombine).mono
        fun _ h => h.inside).imp ?_
      rintro number e ⟨tokens, htokens, hresult⟩
      exact (htokens.combine hresult).holdsIn nofun
    · exact follows_pure fun _ => areFound_of_isFree hformed rfl
    · -- `EXISTS`
      rename_i negated
      have hgroup := readFirstGroup_finds scope place 0 children hchildren
        (children_of_isAroundGroup rfl hformed)
      refine ((hgroup.last (Expr.exists negated)).mono fun _ h => h.inside).imp ?_
      rintro number _ ⟨g, hfound, rfl⟩
      refine HoldsBehind.holdsIn (hfound.mono (IsFound.imp fun _ _ hblock => ?_)) nofun
      exact hblock.of_inside List.mem_cons_self
    · exact follows_throw _
    · -- a call of a function by its keyword
      cases children with
      | nil => exact follows_throw _
      | cons name args =>
        exact follows_namedCall hformed (readExprs_finds scope place 1 args
          (fun n hn => hchildren n (List.mem_cons_of_mem name hn)) (rules_of_builtinCall hformed).2)
    · -- a name, alone or with the argument of a cast
      cases children with
      | nil => exact follows_throw _
      | cons name rest =>
        cases rest with
        | nil => exact follows_name hformed
        | cons args more =>
          cases args with
          | node r s t items =>
            have hargs := hchildren _ (List.mem_cons_of_mem name List.mem_cons_self)
            have hrule := rule_of_castArguments hformed
            exact follows_cast hformed (readExprs_finds scope (1 :: place) 0 items hargs.children
              (rules_of_arguments (.inr hrule) hargs))
    · -- a constant
      have hterm := (isSteady_readTerm scope (.node rule start text children)).follows
      refine ((hterm.mono fun _ h => h.elim).last Expr.const).imp ?_
      rintro number _ ⟨t, hsaid, rfl⟩
      exact areFound_of_isFree hformed (isFree_of_saidBy hsaid)

/-- The tokens of an expression have the blocks of their nodes. -/
theorem readTokens_finds (scope : IriScope) (place : Path) (i : Nat) : ∀ nodes : List Node,
    (∀ node ∈ nodes, IsFormed grammar node) →
      Follows (readTokens scope nodes) (Spot.IsBehind place i) fun number tokens =>
        TokensFound number scope place i nodes tokens
  | [], _ => follows_pure fun _ => ⟨nofun, .inr holdsBehind_nil⟩
  | .node rule start text children :: rest, hformed => by
    have hnode := hformed _ List.mem_cons_self
    have hrest := readTokens_finds scope place (i + 1) rest
      fun n hn => hformed n (List.mem_cons_of_mem _ hn)
    have hoperand := readExpr_finds scope (i :: place) _ hnode
    have hlater : ∀ spot : Spot, spot.IsBehind place (i + 1) → spot.IsBehind place i :=
      fun _ h => h.mono (Nat.le_succ i)
    unfold readTokens
    split
    · rename_i op
      refine ((hrest.last (Precedence.Token.between op :: ·)).mono hlater).imp ?_
      rintro number _ ⟨tokens, htokens, rfl⟩
      exact htokens.cons ⟨trivial, fun _ _ => trivial⟩ (.inr (areFound_of_isFree hnode rfl))
    · rename_i op
      refine ((hrest.last (Precedence.Token.before op :: ·)).mono hlater).imp ?_
      rintro number _ ⟨tokens, htokens, rfl⟩
      exact htokens.cons ⟨trivial, fun _ _ => trivial⟩ (.inr (areFound_of_isFree hnode rfl))
    · rename_i negated
      have hitems := (readListed_finds scope (i :: place) 0 children hnode.children
        (children_of_memberOp hnode)).mono fun _ h => h.inside
      refine (hitems.observe.children fun items =>
        hrest.last (Precedence.Token.after (membership negated items) :: ·)).imp ?_
      rintro number _ ⟨items, hfound, tokens, htokens, rfl⟩
      exact htokens.cons (keeps_membership negated items)
        (gives_membership negated items fun es hes => (hfound es hes).holdsIn nofun)
    · refine (hoperand.observe.children fun operand =>
        hrest.last (Precedence.Token.operand operand :: ·)).imp ?_
      rintro number _ ⟨operand, hfound, tokens, htokens, rfl⟩
      refine htokens.cons ⟨trivial, fun _ _ => trivial⟩ ?_
      cases operand with
      | error f => exact .inl nofun
      | ok e =>
        refine .inr ((hfound e rfl).mono (IsFound.imp fun _ _ hblock e' he' => ?_))
        cases he'
        exact hblock

/-- The items of a list of expressions have the blocks of their nodes. -/
theorem readListed_finds (scope : IriScope) (place : Path) (i : Nat) : ∀ nodes : List Node,
    (∀ node ∈ nodes, IsFormed grammar node) →
      (∃ list, nodes = [list] ∧ list.rule = .expressionList) →
        Follows (readListed scope nodes) (Spot.IsBehind place i) fun number es =>
          AreAllFound number scope (OneHas (fun e => (Part.expr e).HasBlock) es) place i nodes
  | [], _, _ => follows_pure fun _ => holdsBehind_nil
  | .node rule start text items :: rest, hformed, hone => by
    have hnode := hformed _ List.mem_cons_self
    have hread := readExprs_finds scope (i :: place) 0 items hnode.children
    obtain ⟨list, hlist, hrule⟩ := hone
    obtain ⟨rfl, rfl⟩ := List.cons.inj hlist
    obtain rfl : rule = .expressionList := hrule
    unfold readListed
    refine ((hread (rules_of_arguments (.inl rfl) hnode)).mono fun _ h => h.inside.behind).imp ?_
    exact fun number es hfound => holdsBehind_cons (hfound.holdsIn nofun) holdsBehind_nil

/-- Expressions in a row have the blocks of their nodes. -/
theorem readExprs_finds (scope : IriScope) (place : Path) (i : Nat) : ∀ nodes : List Node,
    (∀ node ∈ nodes, IsFormed grammar node) →
      (∀ node ∈ nodes, node.rule = .expression ∨ isBlockFree node.rule = true) →
        Follows (readExprs scope nodes) (Spot.IsBehind place i) fun number es =>
          AreAllFound number scope (OneHas (fun e => (Part.expr e).HasBlock) es) place i nodes
  | [], _, _ => follows_pure fun _ => holdsBehind_nil
  | .node rule start text children :: rest, hformed, hrules => by
    have hnode := hformed _ List.mem_cons_self
    have hrest := readExprs_finds scope place (i + 1) rest
      (fun n hn => hformed n (List.mem_cons_of_mem _ hn))
      fun n hn => hrules n (List.mem_cons_of_mem _ hn)
    have hexpr := readExpr_finds scope (i :: place) _ hnode
    unfold readExprs
    split
    · refine (hexpr.children fun e => hrest.last (e :: ·)).imp ?_
      rintro number _ ⟨e, hfound, es, hmore, rfl⟩
      exact areAllFound_cons hfound hmore
    · rename_i hne
      have hfree := (hrules _ List.mem_cons_self).resolve_left hne
      refine (hrest.mono fun _ h => h.mono (Nat.le_succ i)).imp fun number es hfound => ?_
      exact areAllFound_skip hnode hfree hfound

/-- A group that is read from the first of some nodes has the blocks of this node. -/
theorem readFirstGroup_finds (scope : IriScope) (place : Path) (i : Nat) : ∀ nodes : List Node,
    (∀ node ∈ nodes, IsFormed grammar node) → (∃ group, nodes = [group] ∧ group.rule = .group) →
      Follows (readFirstGroup scope nodes) (Spot.IsBehind place i) fun number g =>
        AreAllFound number scope (Part.group g).HasBlock place i nodes
  | [], _, _ => follows_pure fun _ => holdsBehind_nil
  | .node rule start text children :: rest, hformed, hone => by
    have hgroup := readGroup_finds scope (i :: place) _ (hformed _ List.mem_cons_self)
    obtain ⟨group, hlist, hrule⟩ := hone
    obtain ⟨rfl, rfl⟩ := List.cons.inj hlist
    obtain rfl : rule = .group := hrule
    unfold readFirstGroup
    exact ((hgroup rfl).mono fun _ h => h.behind).imp fun number g hfound =>
      holdsBehind_cons hfound holdsBehind_nil

/-- Groups in a row have the blocks of their nodes. -/
theorem readGroups_finds (scope : IriScope) (place : Path) (i : Nat) : ∀ nodes : List Node,
    (∀ node ∈ nodes, IsFormed grammar node) → (∀ node ∈ nodes, node.rule = .group) →
      Follows (readGroups scope nodes) (Spot.IsBehind place i) fun number groups =>
        AreAllFound number scope (OneHas (fun g => (Part.group g).HasBlock) groups) place i nodes
  | [], _, _ => follows_pure fun _ => holdsBehind_nil
  | node :: rest, hformed, hrules => by
    have hrest := readGroups_finds scope place (i + 1) rest
      (fun n hn => hformed n (List.mem_cons_of_mem _ hn))
      fun n hn => hrules n (List.mem_cons_of_mem _ hn)
    unfold readGroups
    refine ((readGroup_finds scope (i :: place) node (hformed node List.mem_cons_self)
      (hrules node List.mem_cons_self)).children fun g => hrest.last (g :: ·)).imp ?_
    rintro number _ ⟨g, hfound, groups, hmore, rfl⟩
    exact areAllFound_cons hfound hmore

/-- A group has the blocks of its node. -/
theorem readGroup_finds (scope : IriScope) (place : Path) : ∀ node : Node,
    IsFormed grammar node → node.rule = .group →
      Follows (readGroup scope node) (Spot.IsInside place) fun number g =>
        AreFound number scope (Part.group g).HasBlock place node
  | .node rule start text [], hformed, hrule => by
    obtain rfl : rule = .group := hrule
    exact follows_pure fun _ => holdsBehind_nil.holdsIn nofun
  | .node rule start text (.node inner start' text' parts :: rest), hformed, hrule => by
    have hchild := hformed.children _ List.mem_cons_self
    have helements := readElements_finds scope (0 :: place) 0 [] parts hchild.children
    obtain rfl : rule = .group := hrule
    obtain ⟨child, hone, hinner⟩ := children_of_group hformed
    obtain ⟨rfl, rfl⟩ := List.cons.inj hone
    unfold readGroup
    split
    · exact follows_throw _
    · rename_i hne
      have hrules : inner = .subquery ∨ inner = .groupContent := by
        simpa [ParseTree.rule] using hinner
      obtain rfl := hrules.resolve_left hne
      refine ((helements.last Group.mk).mono fun _ h => h.inside.behind.inside).imp ?_
      rintro number _ ⟨elements, ⟨-, hfound⟩, rfl⟩
      refine HoldsBehind.holdsIn (holdsBehind_cons (HoldsBehind.holdsIn ?_ nofun) holdsBehind_nil) nofun
      exact hfound.mono (IsFound.imp fun _ _ ⟨element, hmem, hblock⟩ =>
        hasBlock_of_element hmem hblock)

/-- The elements of a group have the blocks of its nodes, and keep those that were there. -/
theorem readElements_finds (scope : IriScope) (place : Path) (i : Nat) (done : List Element) :
    ∀ nodes : List Node, (∀ node ∈ nodes, IsFormed grammar node) →
      Follows (readElements scope done nodes) (Spot.IsBehind place i) fun number elements =>
        done ⊆ elements ∧
          AreAllFound number scope (OneHas Element.HasBlock elements) place i nodes
  | [], _ => follows_pure fun _ => ⟨List.Subset.refl done, holdsBehind_nil⟩
  | .node rule start text children :: rest, hformed => by
    have hrest := fun element => readElements_finds scope place (i + 1) (done ++ [element]) rest
      fun n hn => hformed n (List.mem_cons_of_mem _ hn)
    unfold readElements
    refine ((readElement_finds scope (i :: place) done _
      (hformed _ List.mem_cons_self)).children hrest).imp ?_
    rintro number elements ⟨element, hfound, hsubset, hmore⟩
    have hmem : element ∈ elements := hsubset (List.mem_append_right done (List.mem_singleton_self _))
    refine ⟨fun e he => hsubset (List.mem_append_left _ he), holdsBehind_cons ?_ hmore⟩
    exact hfound.mono (IsFound.imp fun _ _ hblock => ⟨element, hmem, hblock⟩)

/-- An element has the blocks of its node. -/
theorem readElement_finds (scope : IriScope) (place : Path) (done : List Element) : ∀ node : Node,
    IsFormed grammar node →
      Follows (readElement scope done node) (Spot.IsInside place) fun number element =>
        AreFound number scope element.HasBlock place node
  | .node rule start text children, hformed => by
    have hchildren := hformed.children
    have hgroups := readGroups_finds scope place 0 children hchildren
    have hfirstGroup := readFirstGroup_finds scope place 0 children hchildren
    unfold readElement
    split
    · exact follows_triples hformed
    · -- one branch is a group, more are a union
      have hunion : ∀ groups : List Group, Follows (match groups with
          | [inner] => pure (Element.group inner)
          | branches => pure (.union branches)) noSpot fun _ element =>
            ∀ g ∈ groups, .group g ∈ element.parts := by
        intro groups
        split
        · exact follows_pure fun _ g hg => List.mem_map_of_mem hg
        · exact follows_pure fun _ g hg => List.mem_map_of_mem hg
      refine ((((hgroups (rules_of_unionPattern hformed)).finish hunion)).mono fun _ h => h.inside).imp ?_
      rintro number element ⟨groups, hfound, hparts⟩
      refine HoldsBehind.holdsIn (hfound.mono (IsFound.imp fun _ _ hone => ?_)) nofun
      obtain ⟨g, hg, hblock⟩ := hone
      exact hasBlock_of_group (hparts g hg) hblock
    · exact follows_aroundGroup rfl (hfirstGroup (children_of_isAroundGroup rfl hformed))
        .optional fun _ => List.mem_cons_self
    · exact follows_aroundGroup rfl (hfirstGroup (children_of_isAroundGroup rfl hformed))
        .minus fun _ => List.mem_cons_self
    · exact follows_throw _
    · exact follows_throw _
    · -- `FILTER`
      cases children with
      | nil => exact follows_throw _
      | cons condition rest =>
        have hcondition := readExpr_finds scope (0 :: place) condition
          (hchildren condition List.mem_cons_self)
        obtain rfl := children_of_filter hformed
        refine ((hcondition.last Element.filter).mono fun _ h => h.behind.inside).imp ?_
        rintro number _ ⟨e, hfound, rfl⟩
        refine HoldsBehind.holdsIn (holdsBehind_cons (hfound.mono ?_) holdsBehind_nil) nofun
        exact IsFound.imp fun _ _ hblock => .inr ⟨_, List.mem_cons_self, hblock⟩
    · -- `BIND`
      cases children with
      | nil => exact follows_throw _
      | cons value rest =>
        have hvalue := readExpr_finds scope (0 :: place) value (hchildren value List.mem_cons_self)
        cases rest with
        | nil => exact follows_throw _
        | cons target rest =>
          obtain ⟨htarget, rfl⟩ := children_of_bind hformed
          have hbind : ∀ e, Follows (if (addElementVars [] done).contains (variableName target) then
              refuse target (.targetInScope (variableName target))
            else pure (Element.bind e (variableName target))) noSpot fun _ element =>
              element = .bind e (variableName target) := by
            intro e
            split
            · exact follows_throw _
            · exact follows_pure fun _ => rfl
          refine ((hvalue.finish hbind).mono fun _ h => h.behind.inside).imp ?_
          rintro number _ ⟨e, hfound, rfl⟩
          have hlast := hchildren target (List.mem_cons_of_mem value List.mem_cons_self)
          refine HoldsBehind.holdsIn (holdsBehind_cons (hfound.mono ?_)
            (areAllFound_skip hlast htarget holdsBehind_nil)) nofun
          exact IsFound.imp fun _ _ hblock => .inr ⟨_, List.mem_cons_self, hblock⟩
    · refine (((isSteady_readData scope children).follows.mono fun _ h => h.elim).last
        Element.data).imp ?_
      rintro number _ -
      exact areFound_of_isFree hformed rfl
    · exact follows_throw _

end

end RdfStore.Query
