import RdfStore.Proofs.Peg.Shape
import RdfStore.Proofs.Query.Walk

/-!
# The parts that are read are sound

What holds of a group or an expression on its own, given its elements or operands, is called sound
here. The reader checks some of it and relies on the grammar for the rest: a union has a branch
because the grammar matched a group there, and the short form of inline data has one variable. So
the walk over nodes that are formed as the grammar says gives parts that are sound at every depth.
-/

set_option autoImplicit false

namespace RdfStore.Query

open RdfStore.Peg RdfStore.Syntax

/-! ## Sound parts -/

/-- Every row has one entry for each variable. -/
def DataBlock.IsRectangular (block : DataBlock) : Prop :=
  ∀ row ∈ block.rows, row.length = block.vars.length

/-- What holds of an element that comes after others in its group: patterns have no blank node of
a template, a union has at least two branches, inline data is rectangular, and an assigned
variable is not bound before. -/
def Element.IsSoundAfter (before : List Element) : Element → Prop
  | .triples patterns => labelsOf patterns = []
  | .union branches => 2 ≤ branches.length
  | .data block => block.IsRectangular
  | .bind _ name => name ∉ addElementVars [] before
  | .filter _ | .optional _ | .group _ | .minus _ => True

/-- Every element is sound after those before it. -/
def Group.IsSound (g : Group) : Prop :=
  ∀ before element after, g.elements = before ++ element :: after → element.IsSoundAfter before

/-- A function has as many arguments as it takes, a cast has one, and `BOUND` has a variable. -/
def Expr.IsSound : Expr → Prop
  | .call f args =>
    (f.minArgs ≤ args.length ∧ ∀ most, f.maxArgs? = some most → args.length ≤ most) ∧
      (∀ target, f = .cast target → args.length = 1) ∧
      (f = .bound → ∃ name, args = [.var name])
  | _ => True

/-- What holds of a part on its own. -/
def Part.IsSound : Part → Prop
  | .group g => g.IsSound
  | .expr e => e.IsSound

/-- What holds of a column over the variables in scope: a plain column is one of them, and a
computed column has a name of its own. -/
def SelectItem.IsSoundIn (inScope : List String) : SelectItem → Prop
  | .var name => name ∈ inScope
  | .expr _ name => name ∉ inScope

/-! ## What the grammar sees to -/

/-- Formed nodes of the grammar of queries. -/
abbrev AreFormed (nodes : List Node) : Prop := ∀ node ∈ nodes, IsFormed grammar node

/-- A union has a branch. -/
theorem children_ne_nil_of_union {start : Nat} {text : List Char} {children : List Node}
    (h : IsFormed grammar (.node .unionPattern start text children)) : children ≠ [] := by
  cases h with
  | @node _ _ _ _ mode hvisible hleaves _ =>
    rintro rfl
    generalize hrules : ([] : List Node).map ParseTree.rule = rules at hleaves
    cases hleaves with
    | seq hfirst _ =>
      rw [hfirst.of_visible hvisible] at hrules
      cases hrules

/-- The values of inline data are no variables. -/
theorem ne_var_of_leaves {mode : Mode} {rules : List Symbol} (hmode : mode ≠ .token)
    (h : Leaves grammar mode (.star Symbol.dataValue) rules) : ∀ r ∈ rules, r ≠ .var := by
  have hvisible : ∀ r ∈ (Peg.Expr.star Symbol.dataValue).calls,
      (grammar.production r).manner.isVisible mode = true := by
    cases mode with
    | token => exact absurd rfl hmode
    | words => decide
    | compound => decide
  have hcalls : ∀ r ∈ (Peg.Expr.star Symbol.dataValue).calls, r ≠ .var := by decide
  exact fun r hr => hcalls r (h.mem_calls hvisible r hr)

/-- The short form of inline data has one variable. -/
theorem length_namesOf_of_singleColumn {start : Nat} {text : List Char} {children : List Node}
    (h : IsFormed grammar (.node .singleColumn start text children)) :
    (namesOf children).length = 1 := by
  have hcount : (namesOf children).length =
      ((children.map ParseTree.rule).filter (· == Symbol.var)).length := by
    rw [namesOf, List.length_map, List.filter_map, List.length_map]
    rfl
  rw [hcount]
  cases h with
  | @node _ _ _ _ mode hvisible hleaves _ =>
    have hmode : mode ≠ .token := by
      rintro rfl
      cases hvisible
    generalize children.map ParseTree.rule = rules at hleaves ⊢
    cases hleaves with
    | seq hvar hrest =>
      cases hrest with
      | seq hopen hrest =>
        cases hopen
        cases hrest with
        | @seq _ _ _ values _ hvalues hclose =>
          cases hclose
          have hnone : values.filter (· == Symbol.var) = [] := by
            rw [List.filter_eq_nil_iff]
            intro r hr
            simpa using ne_var_of_leaves hmode hvalues r hr
          rw [hvar.of_visible hvisible]
          simp [hnone]

/-! ## Inline data -/

/-- A row of a table has a value for each column. -/
theorem readRow_length (scope : IriScope) (vars : List String) (row : Node) :
    Yields (readRow scope vars row) fun values => values.length = vars.length := by
  unfold readRow
  refine (yields_true _).bind fun values _ => ?_
  split
  · rename_i hlength
    exact yields_pure hlength
  · exact yields_refuse row _

/-- The rows of inline data are as long as its columns. -/
theorem readDataBlock_rectangular (scope : IriScope) {block : Node}
    (h : IsFormed grammar block) :
    Yields (readDataBlock scope block) DataBlock.IsRectangular := by
  unfold readDataBlock
  dsimp only
  split
  · rename_i hrule
    obtain ⟨rule, start, text, children⟩ := block
    cases hrule
    have hrow : ∀ item ∈ nonVariables children,
        Yields (do return [← readDatum scope item]) fun row => row.length = 1 :=
      fun item _ => (yields_true _).bind fun _ _ => yields_pure rfl
    refine (yields_mapM hrow).bind fun rows hrows => yields_pure fun row hmem => ?_
    exact (hrows row hmem).trans (length_namesOf_of_singleColumn h).symm
  · exact (yields_mapM fun row _ => readRow_length scope _ row).bind fun _ hrows =>
      yields_pure hrows

/-! ## What is read is sound -/

/-- Soundness of everything that is read from formed nodes. -/
def soundness : Criterion where
  node := IsFormed grammar
  expr := Expr.IsSound
  element before element := element.IsSoundAfter before
  data := DataBlock.IsRectangular
  template _ := True
  column inScope item := item.IsSoundIn inScope

/-- A part meets the criterion of soundness if it is sound. -/
theorem Part.meets_soundness {p : Part} : p.Meets soundness ↔ p.IsSound := by
  cases p <;> exact Iff.rfl

/-- As many arguments as a function takes make a sound call; `BOUND` needs a variable. -/
theorem Expr.isSound_call {function : Function} {args : List Expr}
    (htakes : function.takes args.length = true)
    (hbound : function = .bound → ∃ name, args = [.var name]) :
    (Expr.call function args).IsSound := by
  simp only [Function.takes, Bool.and_eq_true, decide_eq_true_eq, Option.all_eq_true] at htakes
  refine ⟨htakes, fun target htarget => ?_, hbound⟩
  -- a cast takes at least and at most one argument
  subst htarget
  exact Nat.le_antisymm (htakes.2 1 rfl) htakes.1

/-- There is a branch, and not just one. -/
theorem two_le_length_branches {start : Nat} {text : List Char} {children : List Node}
    {branches : List Group} (h : IsFormed grammar (.node .unionPattern start text children))
    (hlength : branches.length = children.length) (hne : branches.length ≠ 1) :
    2 ≤ branches.length := by
  have hpos := List.length_pos_iff.mpr (children_ne_nil_of_union h)
  omega

/-- The criterion of soundness is kept by the walk over a query. -/
theorem soundness_isRead : soundness.IsRead where
  children _ h := h.children
  var _ := trivial
  const _ _ _ := (yields_true _).mono fun _ _ => trivial
  iri _ _ := trivial
  unary _ _ := trivial
  binary _ _ _ := trivial
  member _ _ _ := trivial
  exists_ _ _ := trivial
  call _ _ htakes hbound := Expr.isSound_call htakes hbound
  triples scope nodes _ := (readBlocks_unlabelled scope nodes).mono fun _ h _ => h
  union _ _ _ h _ _ hlength hne := two_le_length_branches h hlength hne
  group _ _ := trivial
  optional _ _ := trivial
  minus _ _ := trivial
  filter _ _ := trivial
  bind _ _ _ _ _ _ _ _ hnew := hnew
  block scope _ h := readDataBlock_rectangular scope h
  noBlock _ hrow := absurd hrow List.not_mem_nil
  data _ _ h := h
  template _ _ _ _ := (yields_true _).mono fun _ _ => trivial
  noTemplate := trivial
  plain _ _ _ _ _ _ h := h
  computed _ _ _ _ _ _ _ h _ := h

/-- A part is sound, and so is everything inside. -/
abbrev Part.IsDeeplySound (p : Part) : Prop := p.MeetsDeeply soundness

/-! ## Sound parts have no labels -/

mutual

/-- The patterns in a sound group have no labels, at any depth. -/
theorem labels_of_group (g : Group) (h : (Part.group g).IsDeeplySound) : g.labels = [] := by
  match g with
  | .mk elements =>
    refine labels_of_elements elements (fun element hmem => ?_) fun p hp => h.inside hp
    obtain ⟨before, after, rfl⟩ := List.append_of_mem hmem
    exact ⟨before, h _ .self before element after rfl⟩

/-- Sound elements leave no labels. -/
theorem labels_of_elements (elements : List Element)
    (h : ∀ element ∈ elements, ∃ before, element.IsSoundAfter before)
    (hparts : ∀ p ∈ elements.flatMap Element.parts, p.IsDeeplySound) :
    elementLabels elements = [] := by
  match elements with
  | [] => rfl
  | element :: rest =>
    obtain ⟨before, helement⟩ := h element List.mem_cons_self
    have hfirst := labels_of_element element helement fun p hp =>
      hparts p (List.mem_append_left _ hp)
    have hrest := labels_of_elements rest (fun e he => h e (List.mem_cons_of_mem _ he))
      fun p hp => hparts p (List.mem_append_right _ hp)
    rw [elementLabels, hfirst, hrest]
    rfl

/-- A sound element leaves no labels. -/
theorem labels_of_element (element : Element) {before : List Element}
    (h : element.IsSoundAfter before) (hparts : ∀ p ∈ element.parts, p.IsDeeplySound) :
    element.labels = [] := by
  match element with
  | .triples patterns => exact h
  | .filter e | .bind e _ => exact labels_of_expr e (hparts _ List.mem_cons_self)
  | .optional g | .group g | .minus g => exact labels_of_group g (hparts _ List.mem_cons_self)
  | .union branches =>
    exact labels_of_branches branches fun g hg => hparts _ (List.mem_map_of_mem hg)
  | .data _ => rfl

/-- Sound branches leave no labels. -/
theorem labels_of_branches (branches : List Group)
    (h : ∀ g ∈ branches, (Part.group g).IsDeeplySound) : branchLabels branches = [] := by
  match branches with
  | [] => rfl
  | g :: rest =>
    have hrest := labels_of_branches rest fun other hother => h other (List.mem_cons_of_mem _ hother)
    rw [branchLabels, labels_of_group g (h g List.mem_cons_self), hrest]
    rfl

/-- A sound expression leaves no labels. -/
theorem labels_of_expr (e : Expr) (h : (Part.expr e).IsDeeplySound) : e.labels = [] := by
  match e with
  | .var _ | .const _ => rfl
  | .binary _ left right =>
    have hleft := labels_of_expr left (h.inside List.mem_cons_self)
    have hright := labels_of_expr right (h.inside (List.mem_cons_of_mem _ List.mem_cons_self))
    rw [Expr.labels, hleft, hright]
    rfl
  | .unary _ operand => exact labels_of_expr operand (h.inside List.mem_cons_self)
  | .call _ args => exact labels_of_exprs args fun e he => h.inside (List.mem_map_of_mem he)
  | .member _ operand items =>
    have hoperand := labels_of_expr operand (h.inside List.mem_cons_self)
    have hitems := labels_of_exprs items fun e he =>
      h.inside (List.mem_cons_of_mem _ (List.mem_map_of_mem he))
    rw [Expr.labels, hoperand, hitems]
    rfl
  | .exists _ g => exact labels_of_group g (h.inside List.mem_cons_self)

/-- Sound expressions leave no labels. -/
theorem labels_of_exprs (es : List Expr) (h : ∀ e ∈ es, (Part.expr e).IsDeeplySound) :
    exprLabels es = [] := by
  match es with
  | [] => rfl
  | e :: rest =>
    have hrest := labels_of_exprs rest fun other hother => h other (List.mem_cons_of_mem _ hother)
    rw [exprLabels, labels_of_expr e (h e List.mem_cons_self), hrest]
    rfl

end

end RdfStore.Query
