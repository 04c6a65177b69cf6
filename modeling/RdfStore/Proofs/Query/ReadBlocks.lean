import RdfStore.Proofs.Peg.Growth
import RdfStore.Proofs.Query.Blocks
import RdfStore.Proofs.Query.Ingredients

/-!
# Blocks of a text

The blocks in the text of a query are in the query that is read of it. Each clause has its own
place in the query, so no clause takes away what another has put there: there is one pattern, at
most one template and at most one clause of sort keys, and where the columns are listed there is no
mark of all columns.
-/

set_option autoImplicit false

namespace RdfStore.Query

open RdfStore.Peg RdfStore.Syntax

variable {number : Spot → Nat} {scope : IriScope} {inTemplate : Bool} {ps : List Pattern}
  {place : Path} {i : Nat} {node : Node} {nodes : List Node} {start : Nat} {text : List Char}
  {children : List Node}

/-! ## Sort keys and parts -/

/-- A sort key has the blocks of its node. -/
theorem readOrderCondition_finds (scope : IriScope) (hformed : IsFormed grammar node)
    (hrule : node.rule = .orderCondition) :
    Follows (readOrderCondition scope node) (Spot.IsInside place) fun number condition =>
      AreFound number scope (Part.expr condition.key).HasBlock place node := by
  obtain ⟨rule, start, text, children⟩ := node
  obtain rfl : rule = .orderCondition := hrule
  have hchildren := hformed.children
  unfold readOrderCondition
  dsimp only [ParseTree.children]
  split
  · rename_i key
    have hkey := readExpr_finds scope (0 :: place) key (hchildren key List.mem_cons_self)
    refine ((hkey.last (OrderCondition.mk true)).mono fun _ h => h.behind.inside).imp ?_
    rintro number _ ⟨e, hfound, rfl⟩
    exact (holdsBehind_cons hfound holdsBehind_nil).holdsIn_of_eq_false rfl
  · rename_i direction key
    have hkey := readExpr_finds scope (1 :: place) key
      (hchildren key (List.mem_cons_of_mem direction List.mem_cons_self))
    refine ((hkey.last (OrderCondition.mk _)).mono fun _ h => h.behind.inside).imp ?_
    rintro number _ ⟨e, hfound, rfl⟩
    have hshape := hformed.shape rfl (by decide) rfl
    have hfree : ∀ shape ∈ (Symbol.orderCondition.production.body.shapes? fun _ => false).getD [],
        shape.length = 2 → ∀ r ∈ shape.head?, isBlockFree r = true := by decide
    have hdirection := hchildren direction List.mem_cons_self
    exact (areAllFound_skip hdirection (hfree _ hshape rfl _ rfl)
      (holdsBehind_cons hfound holdsBehind_nil)).holdsIn_of_eq_false rfl
  · exact follows_throw _

/-- What is found for each of some nodes is found for all of them. -/
theorem follows_mapM {β : Type} {f : Node → ReaderM β} {holds : β → Bool → List Pattern → Prop}
    (place : Path) (i : Nat) (nodes : List Node)
    (h : ∀ i, ∀ node ∈ nodes, Follows (f node) (Spot.IsInside (i :: place)) fun number b =>
      AreFound number scope (holds b) (i :: place) node) :
    Follows (nodes.mapM f) (Spot.IsBehind place i) fun number bs =>
      AreAllFound number scope (OneHas holds bs) place i nodes := by
  induction nodes generalizing i with
  | nil => exact follows_pure fun _ => holdsBehind_nil
  | cons node nodes ih =>
    rw [List.mapM_cons]
    have hmore := ih (i + 1) fun j n hn => h j n (List.mem_cons_of_mem node hn)
    refine ((h i node List.mem_cons_self).children fun b => hmore.last (b :: ·)).imp ?_
    rintro number _ ⟨b, hfound, bs, hall, rfl⟩
    exact areAllFound_cons hfound hall

/-- One of the sort keys has a block. -/
def Modifiers.HasBlock (m : Modifiers) : Bool → List Pattern → Prop :=
  OneHas (fun condition => (Part.expr condition.key).HasBlock) m.orderBy

/-- The clause of sort keys has its blocks in them; other clauses keep the keys and have no blocks,
unless they are refused. -/
theorem readModifier_finds (scope : IriScope) {done : Modifiers} (hformed : IsFormed grammar node)
    (hrule : node.rule ∈ (grammar.production .modifiers).body.calls) :
    Follows (readModifier scope done node) (Spot.IsInside place) fun number m =>
      (node.rule = .orderClause → AreFound number scope m.HasBlock place node) ∧
        (node.rule ≠ .orderClause → m.orderBy = done.orderBy ∧ isBlockFree node.rule = true) := by
  obtain ⟨rule, start, text, children⟩ := node
  have hcount : ∀ nodes, IsSteady (readCount nodes) := by
    intro nodes
    unfold readCount
    split
    · exact isSteady_pure _
    · split
      · exact isSteady_pure _
      · exact isSteady_throw _
  have hrules : ∀ r ∈ (grammar.production .modifiers).body.calls, r = .groupClause ∨
      r = .havingClause ∨ r = .orderClause ∨ r = .limitClause ∨ r = .offsetClause := by decide
  rcases hrules rule hrule with rfl | rfl | rfl | rfl | rfl
  · exact follows_throw _
  · exact follows_throw _
  · have hconditions : ∀ child ∈ children, child.rule = .orderCondition := by
      have hcalls : ∀ r ∈ (grammar.production .orderClause).body.calls,
          (grammar.production r).manner ≠ .silent ∧ r = .orderCondition := by decide
      intro child hchild
      exact (hcalls _ (hformed.mem_calls rfl (fun r hr => (hcalls r hr).1) child hchild)).2
    have hkeys := follows_mapM place 0 children fun i child hchild =>
      readOrderCondition_finds scope (hformed.children child hchild) (hconditions child hchild)
    refine ((hkeys.last fun keys => { done with orderBy := keys }).mono fun _ h => h.inside).imp ?_
    rintro number _ ⟨keys, hfound, rfl⟩
    exact ⟨fun _ => hfound.holdsIn_of_eq_false rfl, fun hne => absurd rfl hne⟩
  · refine (((hcount children).follows.mono fun _ h => h.elim).last
      fun n => { done with limit := some n }).imp ?_
    rintro number _ ⟨n, -, rfl⟩
    refine ⟨?_, fun _ => ⟨rfl, rfl⟩⟩
    rintro ⟨⟩
  · refine (((hcount children).follows.mono fun _ h => h.elim).last
      fun n => { done with offset := n }).imp ?_
    rintro number _ ⟨n, -, rfl⟩
    refine ⟨?_, fun _ => ⟨rfl, rfl⟩⟩
    rintro ⟨⟩

/-- At most one clause of sort keys is read, and its blocks are in the keys. -/
theorem readModifiers_finds (scope : IriScope) (place : Path) (i : Nat) {done : Modifiers}
    (hformed : ∀ node ∈ nodes, IsFormed grammar node ∧
      node.rule ∈ (grammar.production .modifiers).body.calls) :
    Follows (nodes.foldlM (readModifier scope) done) (Spot.IsBehind place i) fun number m =>
      ((∀ node ∈ nodes, node.rule ≠ .orderClause) →
        m.orderBy = done.orderBy ∧ ∀ has, AreAllFound number scope has place i nodes) ∧
      ((nodes.map ParseTree.rule).count .orderClause ≤ 1 →
        AreAllFound number scope m.HasBlock place i nodes) := by
  induction nodes generalizing i done with
  | nil =>
    exact follows_pure fun _ => ⟨fun _ => ⟨rfl, fun _ => holdsBehind_nil⟩, fun _ => holdsBehind_nil⟩
  | cons node nodes ih =>
    rw [List.foldlM_cons]
    obtain ⟨hnode, hrule⟩ := hformed node List.mem_cons_self
    have hrest := fun n hn => hformed n (List.mem_cons_of_mem node hn)
    refine ((readModifier_finds scope hnode hrule).children fun m => ih (i + 1) hrest).imp ?_
    rintro number last ⟨m, ⟨horder, hother⟩, hnone, hone⟩
    refine ⟨fun hno => ?_, fun hcount => ?_⟩
    · obtain ⟨hkeys, hfree⟩ := hother (hno node List.mem_cons_self)
      obtain ⟨hsame, hall⟩ := hnone fun n hn => hno n (List.mem_cons_of_mem node hn)
      exact ⟨hsame.trans hkeys, fun has => areAllFound_skip hnode hfree (hall has)⟩
    · rw [List.map_cons] at hcount
      by_cases hkeys : node.rule = .orderClause
      · rw [hkeys, List.count_cons_self] at hcount
        have hnot : Symbol.orderClause ∉ nodes.map ParseTree.rule :=
          List.count_eq_zero.mp (by omega)
        obtain ⟨hsame, hall⟩ := hnone fun n hn heq => hnot (heq ▸ List.mem_map_of_mem hn)
        refine holdsBehind_cons ((horder hkeys).mono (IsFound.imp fun _ _ h => ?_)) (hall _)
        rwa [Modifiers.HasBlock, hsame]
      · rw [List.count_cons_of_ne hkeys] at hcount
        exact areAllFound_skip hnode (hother hkeys).2 (hone hcount)

/-! ## Clauses -/

/-- A template has its block. -/
theorem readTemplate_finds (scope : IriScope) (inTemplate : Bool) {rule : Symbol}
    (hrule : rule = .template ∨ rule = .templateAsPattern)
    (hformed : IsFormed grammar (.node rule start text children)) :
    Follows (readTemplate scope inTemplate children) (Spot.IsInside place) fun number triples =>
      AreFound number scope (fun inside ps => inside = inTemplate ∧ triples = ps) place
        (.node rule start text children) := by
  have hplain : isBlock rule = false := by
    rcases hrule with rfl | rfl <;> rfl
  have hshape : children.map ParseTree.rule ∈ [[Symbol.templateTriples], []] := by
    rcases hrule with rfl | rfl <;> exact hformed.shape rfl (by decide) rfl
  simp only [List.mem_cons, List.not_mem_nil, or_false, List.map_eq_nil_iff] at hshape
  rcases hshape with hone | rfl
  · obtain ⟨⟨r, s, t, blocks⟩, rfl, hblock⟩ := eq_singleton_of_map_rule hone
    obtain rfl : r = .templateTriples := hblock
    have htriples := hformed.children _ List.mem_cons_self
    refine ((readBlocks_follows scope inTemplate (0 :: place) blocks).mono
      fun _ h => h.inside.behind.inside).imp fun number triples hsaid => ?_
    refine HoldsBehind.holdsIn (holdsBehind_cons ?_ holdsBehind_nil) fun hblock => ?_
    · refine HoldsBehind.holdsIn (areAllFound_of_isFree fun child hchild => ?_) fun _ =>
        ⟨inTemplate, triples, hsaid, rfl, rfl⟩
      refine ⟨htriples.children child hchild, ?_⟩
      rw [children_of_block (.inr rfl) htriples child hchild]
      rfl
    · exact absurd hblock (Bool.eq_false_iff.mp hplain)
  · refine follows_pure fun _ => holdsBehind_nil.holdsIn fun hblock => ?_
    exact absurd hblock (Bool.eq_false_iff.mp hplain)

/-- What a clause adds to a query: its blocks are in its own part, and the other parts stay. A
dataset is refused. -/
def Adds (number : Spot → Nat) (scope : IriScope) (place : Path) (node : Node)
    (done body : Body) : Prop :=
  match node.rule with
  | .selectClause => body = done
  | .template => body.pattern = done.pattern ∧ body.modifiers = done.modifiers ∧
    AreFound number scope (fun inside ps => inside = true ∧ body.template = ps) place node
  | .templateAsPattern => body.modifiers = done.modifiers ∧ AreFound number scope
    (fun inside ps => inside = false ∧ (ps ≠ [] → (Part.group body.pattern).HasBlock inside ps))
    place node
  | .whereClause => body.template = done.template ∧ body.modifiers = done.modifiers ∧
    AreFound number scope (Part.group body.pattern).HasBlock place node
  | .modifiers => body.template = done.template ∧ body.pattern = done.pattern ∧
    AreFound number scope body.modifiers.HasBlock place node
  | _ => False

/-- The clauses of the three forms. -/
def clauseRules : List Symbol :=
  [.selectClause, .dataset, .template, .templateAsPattern, .whereClause, .modifiers]

/-- A clause adds the blocks of its node to the body. -/
theorem readPart_finds (scope : IriScope) (done : Body) (hformed : IsFormed grammar node)
    (hrule : node.rule ∈ clauseRules) :
    Follows (readPart scope done node) (Spot.IsInside place) fun number body =>
      Adds number scope place node done body := by
  obtain ⟨rule, start, text, children⟩ := node
  simp only [clauseRules, ParseTree.rule, List.mem_cons, List.not_mem_nil, or_false] at hrule
  rcases hrule with rfl | rfl | rfl | rfl | rfl | rfl
  · exact follows_pure fun _ => rfl
  · exact follows_throw _
  · refine ((readTemplate_finds scope true (.inl rfl) hformed).last
      fun triples => { done with template := triples }).imp ?_
    rintro number _ ⟨triples, hfound, rfl⟩
    exact ⟨rfl, rfl, hfound⟩
  · refine ((readTemplate_finds scope false (.inr rfl) hformed).last fun triples =>
      { done with
        template := triples
        pattern := if triples.isEmpty then Group.empty else .mk [.triples triples] }).imp ?_
    rintro number _ ⟨triples, hfound, rfl⟩
    refine ⟨rfl, hfound.mono (IsFound.imp ?_)⟩
    rintro inside ps ⟨rfl, rfl⟩
    refine ⟨rfl, fun hne => ?_⟩
    have hsome : triples.isEmpty = false := by
      rwa [List.isEmpty_eq_false_iff]
    dsimp only
    rw [if_neg (Bool.eq_false_iff.mp hsome)]
    exact ⟨rfl, _, .self, List.mem_singleton_self _⟩
  · have hgroup := readFirstGroup_finds scope place 0 children hformed.children
      (children_of_isAroundGroup rfl hformed)
    refine ((hgroup.last fun g => { done with pattern := g }).mono fun _ h => h.inside).imp ?_
    rintro number _ ⟨g, hfound, rfl⟩
    exact ⟨rfl, rfl, hfound.holdsIn_of_eq_false rfl⟩
  · have hcalls : ∀ child ∈ children, IsFormed grammar child ∧
        child.rule ∈ (grammar.production .modifiers).body.calls := fun child hchild =>
      ⟨hformed.children child hchild, hformed.mem_calls rfl (by decide) child hchild⟩
    have hcount : (children.map ParseTree.rule).count .orderClause ≤ 1 := by
      have hall : ∀ shape ∈ (Symbol.modifiers.production.body.shapes? fun _ => false).getD [],
          shape.count .orderClause ≤ 1 := by decide
      exact hall _ (hformed.shape rfl (by decide) rfl)
    refine (((readModifiers_finds scope place 0 hcalls).last
      fun m => { done with modifiers := m }).mono fun _ h => h.inside).imp ?_
    rintro number _ ⟨m, ⟨-, hfound⟩, rfl⟩
    exact ⟨rfl, rfl, (hfound hcount).holdsIn_of_eq_false rfl⟩

/-- What clauses from a position on add one after the other. -/
def AddsAll (number : Spot → Nat) (scope : IriScope) (place : Path) :
    Nat → List Node → Body → Body → Prop
  | _, [], done, body => body = done
  | i, node :: nodes, done, body => ∃ next, Adds number scope (i :: place) node done next ∧
    AddsAll number scope place (i + 1) nodes next body

/-- Clauses in a row add the blocks of their nodes to the body. -/
theorem readClauses_finds (scope : IriScope) (place : Path) (i : Nat) (done : Body)
    (hformed : ∀ node ∈ nodes, IsFormed grammar node ∧ node.rule ∈ clauseRules) :
    Follows (nodes.foldlM (readPart scope) done) (Spot.IsBehind place i) fun number body =>
      AddsAll number scope place i nodes done body := by
  induction nodes generalizing i done with
  | nil => exact follows_pure fun _ => rfl
  | cons node nodes ih =>
    rw [List.foldlM_cons]
    obtain ⟨hnode, hrule⟩ := hformed node List.mem_cons_self
    exact (readPart_finds scope done hnode hrule).children fun next =>
      ih (i + 1) next fun n hn => hformed n (List.mem_cons_of_mem node hn)

/-- No dataset is among clauses that are read. -/
theorem AddsAll.ne_dataset {done body : Body} (h : AddsAll number scope place i nodes done body) :
    ∀ node ∈ nodes, node.rule ≠ .dataset := by
  induction nodes generalizing i done with
  | nil => exact nofun
  | cons node nodes ih =>
    obtain ⟨next, hadds, hmore⟩ := h
    intro n hn
    rcases List.mem_cons.mp hn with rfl | hn
    · intro hrule
      rw [Adds, hrule] at hadds
      exact hadds
    · exact ih hmore n hn

/-! ## Columns -/

/-- The column computes an expression with the block. -/
def SelectItem.HasBlock (item : SelectItem) (inTemplate : Bool) (ps : List Pattern) : Prop :=
  ∃ e, item.value? = some e ∧ (Part.expr e).HasBlock inTemplate ps

/-- The columns among nodes have their blocks; there are none in other nodes. -/
theorem readItems_finds (scope : IriScope) (inScope : List String) (place : Path) (i : Nat)
    (hformed : ∀ node ∈ nodes, IsFormed grammar node ∧
      (node.rule = .selectItem ∨ isBlockFree node.rule = true)) :
    Follows (readItems scope inScope (nodes.filter fun node => node.rule == .selectItem))
      (Spot.IsBehind place i) fun number items =>
        AreAllFound number scope (OneHas SelectItem.HasBlock items) place i nodes := by
  induction nodes generalizing i inScope with
  | nil => exact follows_pure fun _ => holdsBehind_nil
  | cons node nodes ih =>
    obtain ⟨hnode, hrule⟩ := hformed node List.mem_cons_self
    have hrest := fun inScope => ih inScope (i + 1) fun n hn =>
      hformed n (List.mem_cons_of_mem node hn)
    by_cases hitem : node.rule = .selectItem
    · rw [List.filter_cons_of_pos (by simp [hitem])]
      obtain ⟨rule, start, text, children⟩ := node
      obtain rfl : rule = .selectItem := hitem
      rcases rules_of_selectItem hnode rfl with hshape | hshape
      · obtain ⟨var, rfl, hvar⟩ := eq_singleton_of_map_rule hshape
        have hfree : isBlockFree var.rule = true := hvar ▸ rfl
        have hcolumn := hnode.children var List.mem_cons_self
        unfold readItems
        dsimp only [ParseTree.children]
        split
        · refine (((hrest inScope).mono fun _ h => h.mono (Nat.le_succ i)).last
            (SelectItem.var (variableName var) :: ·)).imp ?_
          rintro number _ ⟨items, hfound, rfl⟩
          refine areAllFound_cons ?_ hfound
          exact (areAllFound_skip hcolumn hfree holdsBehind_nil).holdsIn_of_eq_false rfl
        · exact follows_throw _
      · obtain ⟨value, target, rfl, hvalue, htarget⟩ := eq_pair_of_map_rule hshape
        have hfree : isBlockFree target.rule = true := htarget ▸ rfl
        have hexpr := readExpr_finds scope (0 :: i :: place) value
          (hnode.children value List.mem_cons_self)
        have hlast := hnode.children target (List.mem_cons_of_mem value List.mem_cons_self)
        have hmore : ∀ e, Follows (if inScope.contains (variableName target) then
            refuse target (.aliasInScope (variableName target))
          else do
            let more ← readItems scope (inScope ++ [variableName target])
              (nodes.filter fun node => node.rule == .selectItem)
            return SelectItem.expr e (variableName target) :: more) (Spot.IsBehind place (i + 1))
            fun number items => ∃ more,
              AreAllFound number scope (OneHas SelectItem.HasBlock more) place (i + 1) nodes ∧
                items = SelectItem.expr e (variableName target) :: more := by
          intro e
          split
          · exact follows_throw _
          · exact (hrest _).last (SelectItem.expr e (variableName target) :: ·)
        unfold readItems
        dsimp only [ParseTree.children]
        refine ((hexpr.mono fun _ h => h.behind.inside).children hmore).imp ?_
        rintro number _ ⟨e, hfound, items, hmore, rfl⟩
        refine areAllFound_cons (HoldsBehind.holdsIn_of_eq_false (holdsBehind_cons
          (hfound.mono ?_) (areAllFound_skip hlast hfree holdsBehind_nil)) rfl) hmore
        exact IsFound.imp fun _ _ hblock => ⟨e, rfl, hblock⟩
    · rw [List.filter_cons_of_neg (by simp [hitem])]
      refine ((hrest inScope).mono fun _ h => h.mono (Nat.le_succ i)).imp fun number items hfound => ?_
      exact areAllFound_skip hnode (hrule.resolve_left hitem) hfound

/-- A clause has the mark of all columns, or a list of columns. -/
theorem rules_of_selectClause (h : IsFormed grammar (.node .selectClause start text children)) :
    (∀ child ∈ children, isBlockFree child.rule = true) ∨
      ∀ child ∈ children, child.rule ≠ .allColumns ∧
        (child.rule = .selectItem ∨ isBlockFree child.rule = true) := by
  obtain ⟨mode, hmode, hleaves⟩ := h.leaves rfl
  have hvisible : ∀ r ∈ [Symbol.duplicates, .allColumns, .selectItem],
      (grammar.production r).manner.isVisible mode = true := by
    have hshown : ∀ r ∈ [Symbol.duplicates, .allColumns, .selectItem],
        (grammar.production r).manner ≠ .silent := by decide
    exact fun r hr => Manner.isVisible_of_ne (hshown r hr) hmode
  have hrules : (∀ r ∈ children.map ParseTree.rule, isBlockFree r = true) ∨
      ∀ r ∈ children.map ParseTree.rule, r ≠ .allColumns ∧
        (r = .selectItem ∨ isBlockFree r = true) := by
    generalize children.map ParseTree.rule = rules at hleaves
    cases hleaves with
    | seq hkeyword hleaves =>
      rw [hkeyword.eq_nil rfl, List.nil_append]
      cases hleaves with
      | seq hduplicates hleaves =>
        have hfront := hduplicates.mem_calls fun r hr => hvisible r (by
          rw [List.mem_singleton.mp hr]
          decide)
        cases hleaves with
        | left hall =>
          refine .inl fun r hr => (List.mem_append.mp hr).elim (fun hr => ?_) fun hr => ?_
          · rw [List.mem_singleton.mp (hfront r hr)]
            rfl
          · rw [hall.of_visible (hvisible _ (by decide)), List.mem_singleton] at hr
            rw [hr]
            rfl
        | right hitems =>
          have hback := hitems.mem_calls fun r hr => hvisible r (by
            have hcalls : ∀ r ∈ (Peg.Expr.plus (.rule Symbol.selectItem)).calls,
                r ∈ [Symbol.duplicates, .allColumns, .selectItem] := by decide
            exact hcalls r hr)
          refine .inr fun r hr => (List.mem_append.mp hr).elim (fun hr => ?_) fun hr => ?_
          · rw [List.mem_singleton.mp (hfront r hr)]
            exact ⟨nofun, .inr rfl⟩
          · have hcalls : ∀ r ∈ (Peg.Expr.plus (.rule Symbol.selectItem)).calls,
                r = .selectItem := by decide
            rw [hcalls r (hback r hr)]
            exact ⟨nofun, .inl rfl⟩
  rcases hrules with hall | hitems
  · exact .inl fun child hchild => hall _ (List.mem_map_of_mem hchild)
  · exact .inr fun child hchild => hitems _ (List.mem_map_of_mem hchild)

/-- The blocks of a clause are in the columns that the form computes. -/
theorem readSelect_finds (scope : IriScope) (inScope : List String) (place : Path)
    (hformed : IsFormed grammar (.node .selectClause start text children)) :
    Follows (readSelect scope inScope children) (Spot.IsBehind place 0) fun number form =>
      AreAllFound number scope (OneHas (fun e => (Part.expr e).HasBlock) form.computed)
        place 0 children := by
  have hrules := rules_of_selectClause hformed
  have hcolumns : ∀ child ∈ children, IsFormed grammar child ∧
      (child.rule = .selectItem ∨ isBlockFree child.rule = true) := fun child hchild =>
    ⟨hformed.children child hchild, hrules.elim (fun h => .inr (h child hchild))
      fun h => (h child hchild).2⟩
  have hitems := readItems_finds scope inScope place 0 hcolumns
  unfold readSelect
  refine (hitems.last _).imp ?_
  rintro number _ ⟨items, hfound, rfl⟩
  rcases hrules with hfree | hrules
  · exact areAllFound_of_isFree fun child hchild =>
      ⟨hformed.children child hchild, hfree child hchild⟩
  · have hall : (children.any fun node => node.rule == .allColumns) = false := by
      simpa using fun child hchild => (hrules child hchild).1
    refine hfound.mono (IsFound.imp fun inTemplate ps hone => ?_)
    obtain ⟨item, hitem, e, hvalue, hblock⟩ := hone
    rw [hall]
    exact ⟨e, List.mem_filterMap.mpr ⟨item, hitem, hvalue⟩, hblock⟩

/-! ## Forms -/

/-- The patterns are the template of the query, or else they are none or a block of one of its
groups. -/
def HasBlock (q : Query) : Bool → List Pattern → Prop
  | true, ps => q.form = .construct ps
  | false, ps => ps ≠ [] → ∃ g, q.HasPart (.group g) ∧ .triples ps ∈ g.elements

variable {q : Query}

/-- A block of a root of a query is one of the query. -/
theorem hasBlock_of_root {p : Part} (hroot : p ∈ q.roots) (h : p.HasBlock inTemplate ps) :
    q.HasBlock inTemplate ps := by
  obtain ⟨rfl, g, hwithin, hmem⟩ := h
  exact fun _ => ⟨g, ⟨p, hroot, hwithin⟩, hmem⟩

/-- A block of the pattern is one of the query. -/
theorem hasBlock_of_pattern (h : (Part.group q.pattern).HasBlock inTemplate ps) :
    q.HasBlock inTemplate ps := hasBlock_of_root List.mem_cons_self h

/-- A block of the modifiers is one of the query. -/
theorem hasBlock_of_modifiers (h : q.modifiers.HasBlock inTemplate ps) :
    q.HasBlock inTemplate ps := by
  obtain ⟨condition, hcondition, hblock⟩ := h
  refine hasBlock_of_root (List.mem_append_right _ ?_) hblock
  exact List.mem_map.mpr ⟨condition, hcondition, rfl⟩

/-- A block of a computed column is one of the query. -/
theorem hasBlock_of_computed (h : OneHas (fun e => (Part.expr e).HasBlock) q.form.computed
    inTemplate ps) : q.HasBlock inTemplate ps := by
  obtain ⟨e, he, hblock⟩ := h
  refine hasBlock_of_root (List.mem_append_left _ (List.mem_cons_of_mem _ ?_)) hblock
  exact List.mem_map_of_mem he

/-- The pattern and the modifiers keep the template that was read before. -/
theorem AddsAll.found_pair {done body : Body} (h : AddsAll number scope place i nodes done body)
    (hrules : nodes.map ParseTree.rule = [.whereClause, .modifiers])
    (hpattern : q.pattern = body.pattern) (hmodifiers : q.modifiers = body.modifiers) :
    body.template = done.template ∧ AreAllFound number scope q.HasBlock place i nodes := by
  obtain ⟨whole, modifiers, rfl, hwhole, hlast⟩ := eq_pair_of_map_rule hrules
  obtain ⟨next, hadds, last, hadds', rfl⟩ := h
  rw [Adds, hwhole] at hadds
  rw [Adds, hlast] at hadds'
  obtain ⟨htemplate, -, hfound⟩ := hadds
  obtain ⟨htemplate', hsame, hfound'⟩ := hadds'
  refine ⟨htemplate'.trans htemplate, holdsBehind_cons (hfound.mono (IsFound.imp fun _ _ h => ?_))
    (holdsBehind_cons (hfound'.mono (IsFound.imp fun _ _ h => ?_)) holdsBehind_nil)⟩
  · rw [← hsame, ← hpattern] at h
    exact hasBlock_of_pattern h
  · rw [← hmodifiers] at h
    exact hasBlock_of_modifiers h

/-- The clauses of a template and a pattern have their blocks in the query that is made of them. -/
theorem AddsAll.found {done body : Body} (h : AddsAll number scope place i nodes done body)
    (hrules : nodes.map ParseTree.rule ∈ [[.template, .whereClause, .modifiers],
      [Symbol.templateAsPattern, .modifiers]])
    (hpattern : q.pattern = body.pattern) (hmodifiers : q.modifiers = body.modifiers)
    (htemplate : q.form = .construct body.template) :
    AreAllFound number scope q.HasBlock place i nodes := by
  simp only [List.mem_cons, List.not_mem_nil, or_false] at hrules
  rcases hrules with hrules | hrules
  · obtain ⟨template, rest, rfl, hfirst, hrest⟩ := List.map_eq_cons_iff.mp hrules
    obtain ⟨next, hadds, hmore⟩ := h
    rw [Adds, hfirst] at hadds
    obtain ⟨hkeeps, hfound⟩ := hmore.found_pair hrest hpattern hmodifiers
    refine holdsBehind_cons (hadds.2.2.mono (IsFound.imp ?_)) hfound
    rintro _ ps ⟨rfl, rfl⟩
    rw [← hkeeps]
    exact htemplate
  · obtain ⟨whole, modifiers, rfl, hwhole, hlast⟩ := eq_pair_of_map_rule hrules
    obtain ⟨next, hadds, last, hadds', rfl⟩ := h
    rw [Adds, hwhole] at hadds
    rw [Adds, hlast] at hadds'
    obtain ⟨-, hsame, hfound'⟩ := hadds'
    refine holdsBehind_cons (hadds.2.mono (IsFound.imp ?_))
      (holdsBehind_cons (hfound'.mono (IsFound.imp fun _ _ h => ?_)) holdsBehind_nil)
    · rintro _ ps ⟨rfl, h⟩ hne
      rw [← hsame, ← hpattern] at h
      exact hasBlock_of_pattern (h hne) hne
    · rw [← hmodifiers] at h
      exact hasBlock_of_modifiers h

/-- The rules of the forms of a query and of what is refused in their place. -/
def formRules : List Symbol :=
  [.selectQuery, .constructQuery, .askQuery, .describeQuery, .update]

/-- The clauses of a form, but for its datasets. -/
def clauseShapes : Symbol → List (List Symbol)
  | .selectQuery => [[.selectClause, .whereClause, .modifiers]]
  | .constructQuery => [[.template, .whereClause, .modifiers], [.templateAsPattern, .modifiers]]
  | .askQuery => [[.whereClause, .modifiers]]
  | _ => []

/-- The clauses of a form are of known rules and stand in a known order. -/
theorem clauses_of_form {rule : Symbol}
    (hrule : rule = .selectQuery ∨ rule = .constructQuery ∨ rule = .askQuery)
    (h : IsFormed grammar (.node rule start text children)) :
    (∀ child ∈ children, IsFormed grammar child ∧ child.rule ∈ clauseRules) ∧
      (children.map ParseTree.rule).filter (fun r => !(r == .dataset)) ∈ clauseShapes rule := by
  have hcalls : ∀ r ∈ (grammar.production rule).body.calls,
      (grammar.production r).manner ≠ .silent ∧ r ∈ clauseRules := by
    rcases hrule with rfl | rfl | rfl <;> decide
  have hwords : (grammar.production rule).manner = .words := by
    rcases hrule with rfl | rfl | rfl <;> rfl
  have hshapes : (grammar.production rule).body.shapes? (· == .dataset) =
      some (clauseShapes rule) := by
    rcases hrule with rfl | rfl | rfl <;> rfl
  have hshown := fun r hr => (hcalls r hr).1
  exact ⟨fun child hchild => ⟨h.children child hchild,
    (hcalls _ (h.mem_calls hwords hshown child hchild)).2⟩, h.mem_shapes hwords hshown hshapes⟩

/-- If no dataset is among the clauses, nothing is filtered out. -/
theorem AddsAll.filter_rules {done body : Body}
    (h : AddsAll number scope place i nodes done body) :
    (nodes.map ParseTree.rule).filter (fun r => !(r == .dataset)) = nodes.map ParseTree.rule := by
  refine List.filter_eq_self.mpr fun r hr => ?_
  obtain ⟨node, hnode, rfl⟩ := List.mem_map.mp hr
  simpa using h.ne_dataset node hnode

/-- A selection has the blocks of its node. -/
theorem selectQuery_finds (scope : IriScope) (data : Option DataBlock)
    (hformed : IsFormed grammar (.node .selectQuery start text children)) :
    Follows (readForm scope data (.node .selectQuery start text children)) (Spot.IsInside place)
      fun number q => AreFound number scope q.HasBlock place
        (.node .selectQuery start text children) := by
  obtain ⟨hclauses, hshape⟩ := clauses_of_form (.inl rfl) hformed
  obtain ⟨⟨r, s, t, columns⟩, rest, rfl, hfirst⟩ := hformed.exists_first rfl rfl nofun
  obtain rfl : r = .selectClause := hfirst
  have hrest : (rest.map ParseTree.rule).filter (fun r => !(r == .dataset)) =
      [.whereClause, .modifiers] := (List.cons.inj (List.mem_singleton.mp hshape)).2
  -- the columns are all columns of the only clause of its kind
  have hclause : ((ParseTree.node .selectClause s t columns :: rest).filter
      fun child => child.rule == .selectClause).flatMap ParseTree.children = columns := by
    have hnone : rest.filter (fun child => child.rule == .selectClause) = [] := by
      refine List.filter_eq_nil_iff.mpr fun child hchild hrule => ?_
      have hmem : Symbol.selectClause ∈ (rest.map ParseTree.rule).filter
          fun r => !(r == .dataset) :=
        List.mem_filter.mpr ⟨List.mem_map.mpr ⟨child, hchild, eq_of_beq hrule⟩, rfl⟩
      rw [hrest] at hmem
      revert hmem
      decide
    rw [List.filter_cons_of_pos rfl, hnone]
    exact List.append_nil columns
  have hfold := readClauses_finds scope place 1 ⟨[], .empty, .none⟩ fun n hn =>
    hclauses n (List.mem_cons_of_mem _ hn)
  have hselect := fun inScope => readSelect_finds scope inScope (0 :: place)
    (hclauses _ List.mem_cons_self).1
  have hread := hfold.bind (fun body =>
    (hselect (body.pattern.vars ++ data.elim [] DataBlock.vars)).last fun form =>
      (⟨form, body.pattern, body.modifiers, data⟩ : Query))
    (fun _ h => h.inside) (fun _ h => h.inside.behind.inside)
    (fun _ h h' => h'.inside.not_behind h)
  unfold readForm
  dsimp only [ParseTree.rule, ParseTree.children] at hclause ⊢
  rw [hclause, List.foldlM_cons]
  refine hread.imp ?_
  rintro number _ ⟨body, hadds, form, hcolumns, rfl⟩
  have hpair := hadds.found_pair (q := ⟨form, body.pattern, body.modifiers, data⟩)
    (hadds.filter_rules ▸ hrest) rfl rfl
  have hcomputed : ∀ inTemplate ps, OneHas (fun e => (Part.expr e).HasBlock) form.computed
      inTemplate ps → HasBlock ⟨form, body.pattern, body.modifiers, data⟩ inTemplate ps :=
    fun _ _ h => hasBlock_of_computed h
  have hfound : AreFound number scope (HasBlock ⟨form, body.pattern, body.modifiers, data⟩)
      (0 :: place) (.node .selectClause s t columns) :=
    (hcolumns.mono (IsFound.imp hcomputed)).holdsIn_of_eq_false rfl
  exact (holdsBehind_cons hfound hpair.2).holdsIn_of_eq_false rfl

/-- Any form has the blocks of its node. -/
theorem readForm_finds (scope : IriScope) (data : Option DataBlock) (place : Path)
    (hformed : IsFormed grammar node) (hrule : node.rule ∈ formRules) :
    Follows (readForm scope data node) (Spot.IsInside place) fun number q =>
      AreFound number scope q.HasBlock place node := by
  obtain ⟨rule, start, text, children⟩ := node
  simp only [formRules, ParseTree.rule, List.mem_cons, List.not_mem_nil, or_false] at hrule
  rcases hrule with rfl | rfl | rfl | rfl | rfl
  · exact selectQuery_finds scope data hformed
  · obtain ⟨hclauses, hshape⟩ := clauses_of_form (.inr (.inl rfl)) hformed
    refine (((readClauses_finds scope place 0 ⟨[], .empty, .none⟩ hclauses).last fun body =>
      (⟨.construct body.template, body.pattern, body.modifiers, data⟩ : Query)).mono
        fun _ h => h.inside).imp ?_
    rintro number _ ⟨body, hadds, rfl⟩
    exact (hadds.found (hadds.filter_rules ▸ hshape) rfl rfl rfl).holdsIn_of_eq_false rfl
  · obtain ⟨hclauses, hshape⟩ := clauses_of_form (.inr (.inr rfl)) hformed
    refine (((readClauses_finds scope place 0 ⟨[], .empty, .none⟩ hclauses).last fun body =>
      (⟨.ask, body.pattern, body.modifiers, data⟩ : Query)).mono fun _ h => h.inside).imp ?_
    rintro number _ ⟨body, hadds, rfl⟩
    have hrules := hadds.filter_rules ▸ List.mem_singleton.mp hshape
    exact (hadds.found_pair hrules rfl rfl).2.holdsIn_of_eq_false rfl
  · exact follows_throw _
  · exact follows_throw _

/-! ## Texts -/

/-- The declarations of a query leave the count of anonymous places. -/
theorem isSteady_readPrologue (scope : IriScope) (nodes : List Node) :
    IsSteady (readPrologue scope nodes) := by
  induction nodes generalizing scope with
  | nil => exact isSteady_pure scope
  | cons node nodes ih =>
    unfold readPrologue
    split
    · exact (isSteady_take _).bind fun _ => ih _
    · exact (isSteady_take _).bind fun _ => ih _
    · exact ih scope

/-- A text has a prologue, a form, and no blocks behind the form. -/
theorem children_of_query (h : IsFormed grammar (.node .query start text children)) :
    ∃ prologue form rest, children = prologue :: form :: rest ∧
      isBlockFree prologue.rule = true ∧ form.rule ∈ formRules ∧
        ∀ child ∈ rest, isBlockFree child.rule = true := by
  have hshape : children.map ParseTree.rule ∈ formRules.flatMap fun form =>
      [[Symbol.prologue, form, .valuesClause, .endOfText], [.prologue, form, .endOfText]] := by
    have hshapes := h.shape rfl (by decide) rfl
    revert hshapes
    generalize children.map ParseTree.rule = rules
    revert rules
    decide
  obtain ⟨r, hr, hshape⟩ := List.mem_flatMap.mp hshape
  have hrest : ∃ behind, children.map ParseTree.rule = .prologue :: r :: behind ∧
      ∀ q ∈ behind, isBlockFree q = true := by
    simp only [List.mem_cons, List.not_mem_nil, or_false] at hshape
    rcases hshape with hshape | hshape
    · exact ⟨_, hshape, by decide⟩
    · exact ⟨_, hshape, by decide⟩
  obtain ⟨behind, hrules, hfree⟩ := hrest
  obtain ⟨prologue, more, rfl, hprologue, hmore⟩ := List.map_eq_cons_iff.mp hrules
  obtain ⟨form, rest, rfl, hform, hbehind⟩ := List.map_eq_cons_iff.mp hmore
  refine ⟨prologue, form, rest, rfl, by rw [hprologue]; rfl, hform ▸ hr, fun child hchild => ?_⟩
  exact hfree _ (hbehind ▸ List.mem_map_of_mem hchild)

/-- The blocks of a text are in its query. -/
theorem readParts_finds (hformed : IsFormed grammar (.node .query start text children)) :
    Follows (readParts children) (Spot.IsBehind [] 0) fun number q =>
      ∃ scope, AreFound number scope q.HasBlock [] (.node .query start text children) := by
  obtain ⟨prologue, form, rest, rfl, hprologue, hrule, hrest⟩ := children_of_query hformed
  have hchildren := hformed.children
  -- What stands behind the form only decides whether its query is given back.
  have hform : ∀ scope data (last : Query → ReaderM Query),
      (∀ q, Follows (last q) noSpot fun _ q' => q' = q) →
      Follows (readForm scope data form >>= last) (Spot.IsBehind [] 0) fun number q => ∃ scope,
        AreFound number scope q.HasBlock [] (.node .query start text (prologue :: form :: rest)) := by
    intro scope data last hlast
    have hread := readForm_finds scope data [1]
      (hchildren form (List.mem_cons_of_mem _ List.mem_cons_self)) hrule
    refine ((hread.finish hlast).mono fun _ h => h.behind.mono (Nat.zero_le 1)).imp ?_
    rintro number _ ⟨q, hfound, rfl⟩
    refine ⟨scope, HoldsBehind.holdsIn_of_eq_false ?_ rfl⟩
    refine areAllFound_skip (hchildren prologue List.mem_cons_self) hprologue
      (holdsBehind_cons hfound (areAllFound_of_isFree fun child hchild => ?_))
    exact ⟨hchildren child (List.mem_cons_of_mem _ (List.mem_cons_of_mem _ hchild)),
      hrest child hchild⟩
  unfold readParts
  refine (isSteady_readPrologue _ _).then fun scope => ?_
  dsimp only
  split
  · refine hform scope none _ fun q => ?_
    split
    · exact follows_throw _
    · exact follows_pure fun _ => rfl
  · refine (isSteady_readData scope _).then fun data => hform scope (some data) _ fun q => ?_
    split
    · exact follows_throw _
    · exact follows_pure fun _ => rfl

end RdfStore.Query
