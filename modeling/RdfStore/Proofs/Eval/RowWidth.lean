import RdfStore.Proofs.Eval.Growth
import RdfStore.Proofs.Eval.MergeLaws
import RdfStore.Proofs.Eval.Rewinding
import RdfStore.Proofs.Eval.SameTriples
import RdfStore.Proofs.Eval.SlotTable

/-!
# Rows have a place for every variable

A plan is built of operators over the slots of its query, and so are the plans that its operators
make for optional groups, for branches, for `MINUS` and for `EXISTS`. Each operator keeps the width
of the rows that come to it: what it binds has a slot, what it merges is as wide, and what it makes
anew has a place for every slot. So whatever an operator hands out, however often it is reset in
between, is a row with one place for each variable of the query, and such rows are the same if they
bind the same terms.
-/

set_option autoImplicit false

namespace RdfStore.Eval

open Query Solution

/-! ## What a cursor hands out -/

namespace Cursor

variable {ε α : Type} {c : Cursor ε α} {p : α → Prop}

/-- The states that pulls and resets lead to. -/
inductive Reaches (c : Cursor ε α) : c.State → Prop where
  | start : Reaches c c.start
  | next {s t : c.State} {answer : Option α} (h : Reaches c s)
    (hnext : c.next s = .ok (answer, t)) : Reaches c t
  | reset {s : c.State} (h : Reaches c s) : Reaches c (c.reset s)

/-- After some pulls and resets a pull gives the row. -/
def HandsOut (c : Cursor ε α) (row : α) : Prop :=
  ∃ s t, c.Reaches s ∧ c.next s = .ok (some row, t)

/-- In every state the rows that remain are among those at the start. -/
theorem Reaches.all {s : c.State} (h : c.Reaches s) (hrows : c.rows.All p) :
    (c.remaining s).All p := by
  induction h with
  | start => exact hrows
  | @next s t answer _ hnext ih =>
    cases answer with
    | none =>
      rw [(remaining_of_none hnext).2]
      trivial
    | some row =>
      rw [remaining_of_some hnext] at ih
      exact ih.2
  | reset _ _ =>
    rw [c.remaining_reset]
    exact hrows

/-- What holds of all rows holds of those that are handed out. -/
theorem HandsOut.of_all {row : α} (h : c.HandsOut row) (hrows : c.rows.All p) : p row := by
  obtain ⟨s, t, hs, hnext⟩ := h
  have hall := hs.all hrows
  rw [remaining_of_some hnext] at hall
  exact hall.1

/-- The rows that remain can be pulled. -/
theorem Reaches.all_handsOut {s : c.State} (h : c.Reaches s) : (c.remaining s).All c.HandsOut := by
  generalize hr : c.remaining s = r
  induction r generalizing s with
  | done | failed => trivial
  | row a rest ih =>
    have hnext := c.next_eq s
    rw [hr] at hnext
    obtain ⟨⟨answer, t⟩, hpull, hpair⟩ := map_eq_ok hnext
    obtain ⟨rfl, hrest⟩ := Prod.mk.inj hpair
    exact ⟨⟨s, t, h, hpull⟩, ih (h.next hpull) hrest⟩

/-- Every row of a cursor is one that it hands out. -/
theorem all_handsOut (c : Cursor ε α) : c.rows.All c.HandsOut := Reaches.start.all_handsOut

/-- A row of the drained list is one that the cursor hands out. -/
theorem handsOut_of_mem_toList {list : List α} (h : c.toList = .ok list) {row : α}
    (hrow : row ∈ list) : c.HandsOut row := by
  rw [c.toList_eq_rows] at h
  exact c.all_handsOut.mem_of_toExcept h row hrow

end Cursor

/-! ## Operators -/

/-- An expression asks for a group where `EXISTS` stands in it, inside other groups apart. -/
inductive Asks : Expr → Group → Prop where
  | here {negated : Bool} {g : Group} : Asks (.exists negated g) g
  | inside {e operand : Expr} {g : Group} (hin : Part.expr operand ∈ (Part.expr e).inside)
    (h : Asks operand g) : Asks e g

/-- A cursor of a plan, built of operators. Where an operator plans groups for the rows that come to
it, those plans are built of operators too. -/
inductive IsOperator (env : Env) : SolutionCursor → Prop where
  /-- The start of a plan that stands for itself. -/
  | alone : IsOperator env (.ofList [.unbound env.names.length])
  /-- The start of a plan that is made for a row. -/
  | fed {c : SolutionCursor} {row : Solution} (h : IsOperator env c) (hrow : c.HandsOut row) :
    IsOperator env (.ofList [row])
  | scan {c : SolutionCursor} {p : Pattern} {scan : Scan} (h : IsOperator env c)
    (hscan : Scan.ofPattern env.names p = .ok scan) :
    IsOperator env (c.flatMap fun row => .ok (scan.rows env.store row))
  | filter {c : SolutionCursor} {e : Expr} (h : IsOperator env c)
    (hasked : ∀ g, Asks e g → ∀ row, c.HandsOut row → ∀ inner, groupPlan env g row = .ok inner →
      IsOperator env inner) :
    IsOperator env (c.filter (planValue env e).down.holds)
  | extend {c : SolutionCursor} {e : Expr} {name : String} {slot : Nat} (h : IsOperator env c)
    (hslot : env.names.slotOf name = .ok slot)
    (hasked : ∀ g, Asks e g → ∀ row, c.HandsOut row → ∀ inner, groupPlan env g row = .ok inner →
      IsOperator env inner) :
    IsOperator env (c.map (assign slot (planValue env e).down))
  | optional {c : SolutionCursor} {g : Group} (h : IsOperator env c)
    (hinner : ∀ row, c.HandsOut row → ∀ inner, groupPlan env g row = .ok inner →
      IsOperator env inner) :
    IsOperator env (c.flatMap fun row => (planRows (groupPlan env g row)).map (orKeep row))
  | union {c : SolutionCursor} {branches : List Group} (h : IsOperator env c)
    (hinner : ∀ g ∈ branches, ∀ inner, groupPlan env g (.unbound env.names.length) = .ok inner →
      IsOperator env inner) :
    IsOperator env (c.flatMapTable (fun _ => planRowsOfAll (branchPlans env branches)) joinTable)
  | group {c : SolutionCursor} {g : Group} (h : IsOperator env c)
    (hinner : ∀ inner, groupPlan env g (.unbound env.names.length) = .ok inner →
      IsOperator env inner) :
    IsOperator env (c.flatMapTable
      (fun _ => planRows (groupPlan env g (.unbound env.names.length))) joinTable)
  | minus {c : SolutionCursor} {g : Group} (h : IsOperator env c)
    (hinner : ∀ inner, groupPlan env g (.unbound env.names.length) = .ok inner →
      IsOperator env inner) :
    IsOperator env (c.flatMapTable
      (fun _ => planRows (groupPlan env g (.unbound env.names.length))) keepUnlessExcluded)
  | data {c : SolutionCursor} {block : DataBlock} {table : List Solution} (h : IsOperator env c)
    (htable : dataRows env.names block = .ok table) :
    IsOperator env (c.flatMap fun row => .ok (joinTable table row))
  | sort {c : SolutionCursor} {m : Modifiers} (h : IsOperator env c)
    (hasked : ∀ condition ∈ m.orderBy, ∀ g, Asks condition.key g → ∀ row, c.HandsOut row →
      ∀ inner, groupPlan env g row = .ok inner → IsOperator env inner) :
    IsOperator env (c.whole (sortRows (sortKeys env m)))
  | project {c : SolutionCursor} (h : IsOperator env c) (slots : List Nat) :
    IsOperator env (c.map (Solution.project slots))
  | distinct {c : SolutionCursor} (h : IsOperator env c) : IsOperator env c.distinct
  | drop {c : SolutionCursor} (h : IsOperator env c) (count : Nat) : IsOperator env (c.drop count)
  | take {c : SolutionCursor} (h : IsOperator env c) (count : Nat) : IsOperator env (c.take count)

/-! ## What operators make of a row is as wide -/

/-- A row with one place for each variable. -/
def HasAllSlots (names : Slots) (row : Solution) : Prop := row.length = names.length

variable {env : Env} {names : Slots} {row other : Solution} {c : SolutionCursor}

/-- The row that binds nothing is as wide as the table of slots. -/
theorem hasAllSlots_unbound (names : Slots) : HasAllSlots names (.unbound names.length) :=
  List.length_replicate

/-- Binding a slot of the table adds none. -/
theorem HasAllSlots.bind (h : HasAllSlots names row) {slot : Nat} (hslot : slot < names.length)
    (t : Term) : HasAllSlots names (row.bind slot t) := by
  unfold HasAllSlots at h ⊢
  rw [length_bind]
  omega

/-- An assignment keeps the width of a row. -/
theorem HasAllSlots.assign (h : HasAllSlots names row) {name : String} {slot : Nat}
    (hslot : names.slotOf name = .ok slot) (value : Valuation) :
    HasAllSlots names (assign slot value row) := by
  unfold Eval.assign
  split
  · exact h.bind (lt_of_slot? (slot?_of_slotOf hslot)) _
  · exact h

/-- A projection keeps the width of a row. -/
theorem HasAllSlots.project (h : HasAllSlots names row) (slots : List Nat) :
    HasAllSlots names (row.project slots) := by
  unfold HasAllSlots Solution.project
  rw [List.length_map, List.length_zipIdx]
  exact h

/-- Accepting a term in a position keeps the width of a row. -/
theorem HasAllSlots.accept? (h : HasAllSlots names row) {position : Position}
    (hwidth : position.IsWithin names.length) {t : Term}
    (haccept : position.accept? t row = some other) : HasAllSlots names other := by
  cases position with
  | constant u =>
    cases haccept
    exact h
  | slot n =>
    cases hbound : row.get? n with
    | some u =>
      rw [Position.accept?_of_some hbound] at haccept
      split at haccept
      · cases haccept
        exact h
      · cases haccept
    | none =>
      rw [Position.accept?_of_none hbound] at haccept
      cases haccept
      exact h.bind (hwidth n (List.mem_singleton.mpr rfl)) t

/-- The rows of a scan are as wide as the row that they extend. -/
theorem HasAllSlots.of_scan (h : HasAllSlots names row) {p : Pattern} {scan : Scan}
    (hscan : Scan.ofPattern names p = .ok scan) {s : Store} (hother : other ∈ scan.rows s row) :
    HasAllSlots names other := by
  obtain ⟨m, -, haccept⟩ := List.mem_filterMap.mp hother
  have hwidth := isWithin_ofPattern hscan
  obtain ⟨first, hfirst, haccept⟩ := Option.bind_eq_some_iff.mp haccept
  obtain ⟨second, hsecond, hlast⟩ := Option.bind_eq_some_iff.mp haccept
  exact ((h.accept? hwidth.subject hfirst).accept? hwidth.predicate hsecond).accept? hwidth.object
    hlast

/-- The rows of a join with a table are as wide as the row that they extend. -/
theorem HasAllSlots.of_joinTable (h : HasAllSlots names row) {table : List Solution}
    (htable : ∀ r ∈ table, HasAllSlots names r) (hother : other ∈ joinTable table row) :
    HasAllSlots names other := by
  obtain ⟨r, hr, hmerge⟩ := List.mem_filterMap.mp hother
  exact length_merge? h (htable r hr) hmerge

/-- Slots that were looked up are those of the table. -/
theorem lt_of_mem_slotsOf {vars : List String} {slots : List Nat}
    (h : names.slotsOf vars = .ok slots) : ∀ n ∈ slots, n < names.length := by
  intro n hn
  obtain ⟨v, -, hv⟩ := isSlotOf_of_slotsOf h n hn
  exact lt_of_slot? hv

/-- A row of values for some slots is as wide as the table of slots. -/
theorem hasAllSlots_dataRow {slots : List Nat} (hslots : ∀ n ∈ slots, n < names.length)
    (values : List (Option Term)) : HasAllSlots names (dataRow names.length slots values) := by
  have hentries : ∀ entry ∈ slots.zip values, entry.1 < names.length :=
    fun entry hentry => hslots _ (List.of_mem_zip hentry).1
  unfold dataRow
  refine List.foldlRecOn _ _ (hasAllSlots_unbound names) fun row hrow entry hentry => ?_
  split
  · exact hrow.bind (hentries entry hentry) _
  · exact hrow

/-- The rows of inline data are as wide as the table of slots. -/
theorem hasAllSlots_of_dataRows {block : DataBlock} {table : List Solution}
    (h : dataRows names block = .ok table) : ∀ row ∈ table, HasAllSlots names row := by
  obtain ⟨slots, hslots, rfl⟩ := map_eq_ok h
  intro row hrow
  obtain ⟨values, -, rfl⟩ := List.mem_map.mp hrow
  exact hasAllSlots_dataRow (lt_of_mem_slotsOf hslots) values

/-! ## Rows as a whole -/

namespace Rows

variable {ε α : Type} {p : α → Prop}

/-- What holds of the members of a list holds of it as rows. -/
theorem all_ofList {list : List α} (h : ∀ a ∈ list, p a) : (ofList list : Rows ε α).All p := by
  induction list with
  | nil => trivial
  | cons a rest ih => exact ⟨h a List.mem_cons_self, ih fun b hb => h b (List.mem_cons_of_mem a hb)⟩

/-- What holds of the list of a success holds of it as rows. -/
theorem all_ofExcept {r : Except ε (List α)} (h : ∀ list, r = .ok list → ∀ a ∈ list, p a) :
    (ofExcept r).All p := by
  cases r with
  | ok list => exact all_ofList (h list rfl)
  | error e => trivial

/-- Leaving out repeated rows keeps what holds of all. -/
theorem All.unseen [DecidableEq α] {r : Rows ε α} (hr : r.All p) (seen : List α) :
    (r.unseen seen).All p := by
  induction r generalizing seen with
  | done | failed => trivial
  | row a rest ih =>
    unfold Rows.unseen
    split
    · exact ih hr.2 seen
    · exact ⟨hr.1, ih hr.2 _⟩

/-- Leaving out the first rows keeps what holds of all. -/
theorem All.drop {r : Rows ε α} (hr : r.All p) (count : Nat) : (r.drop count).All p := by
  induction count generalizing r with
  | zero => exact hr
  | succ count ih =>
    cases r with
    | done | failed => trivial
    | row a rest => exact ih hr.2

/-- Taking the first rows keeps what holds of all. -/
theorem All.take {r : Rows ε α} (hr : r.All p) (count : Nat) : (r.take count).All p := by
  induction count generalizing r with
  | zero => trivial
  | succ count ih =>
    cases r with
    | done | failed => trivial
    | row a rest => exact ⟨hr.1, ih hr.2⟩

end Rows

/-- The rows of a plan that is read to its end have the property of all rows of the plan. -/
theorem mem_of_planRows {p : Solution → Prop} {plan : Except ExecutionError SolutionCursor}
    (hplan : ∀ inner, plan = .ok inner → inner.rows.All p) {list : List Solution}
    (h : planRows plan = .ok list) : ∀ row ∈ list, p row := by
  obtain ⟨inner, rfl, hlist⟩ := bind_eq_ok h
  rw [inner.toList_eq_rows] at hlist
  exact (hplan inner rfl).mem_of_toExcept hlist

/-- A row of the branches of a union is a row of the plan of one of them. -/
theorem mem_of_branchPlans {p : Solution → Prop} {branches : List Group}
    (hplans : ∀ g ∈ branches, ∀ inner, groupPlan env g (.unbound env.names.length) = .ok inner →
      inner.rows.All p) {list : List Solution}
    (h : planRowsOfAll (branchPlans env branches) = .ok list) : ∀ row ∈ list, p row := by
  induction branches generalizing list with
  | nil =>
    cases h
    exact fun row hrow => absurd hrow List.not_mem_nil
  | cons g rest ih =>
    obtain ⟨first, hfirst, h⟩ := bind_eq_ok h
    obtain ⟨others, hothers, rfl⟩ := map_eq_ok h
    intro row hrow
    rcases List.mem_append.mp hrow with hrow | hrow
    · exact mem_of_planRows (hplans g List.mem_cons_self) hfirst row hrow
    · exact ih (fun g hg => hplans g (List.mem_cons_of_mem _ hg)) hothers row hrow

/-- A table replaces rows by what it gives for them. -/
theorem all_flatMapTable {p : Solution → Prop} {load : Unit → Except ExecutionError (List Solution)}
    {f : List Solution → Solution → List Solution} (hrows : c.rows.All p)
    (hf : ∀ table, load () = .ok table → ∀ row, p row → ∀ other ∈ f table row, p other) :
    (c.flatMapTable load f).rows.All p := by
  rw [Cursor.rows_flatMapTable]
  exact all_tableRows hrows hf

/-! ## Operators keep the width -/

/-- Every row of an operator has one place for each variable. -/
theorem IsOperator.all_hasAllSlots (h : IsOperator env c) :
    c.rows.All (HasAllSlots env.names) := by
  induction h with
  | alone => exact ⟨hasAllSlots_unbound env.names, trivial⟩
  | fed _ hrow ih => exact ⟨hrow.of_all ih, trivial⟩
  | scan _ hscan ih =>
    refine Rows.all_flatMap ih fun row hrow list hlist other hother => ?_
    cases hlist
    exact hrow.of_scan hscan hother
  | filter _ _ ih => exact ih.filter _
  | extend _ hslot _ ih =>
    refine Rows.all_flatMap ih fun row hrow list hlist other hother => ?_
    cases hlist
    rw [List.mem_singleton.mp hother]
    exact hrow.assign hslot _
  | @optional c g _ _ ih ihinner =>
    -- the inner plan is known to be built of operators only for a row that is handed out
    refine Rows.all_flatMap c.all_handsOut fun row hrow list hlist other hother => ?_
    obtain ⟨extensions, hextensions, rfl⟩ := map_eq_ok hlist
    exact of_mem_orKeep (hrow.of_all ih) (mem_of_planRows (ihinner row hrow) hextensions) other
      hother
  | union _ _ ih ihinner =>
    exact all_flatMapTable ih fun table htable row hrow other hother =>
      hrow.of_joinTable (mem_of_branchPlans ihinner htable) hother
  | group _ _ ih ihinner =>
    exact all_flatMapTable ih fun table htable row hrow other hother =>
      hrow.of_joinTable (mem_of_planRows ihinner htable) hother
  | minus _ _ ih _ =>
    refine all_flatMapTable ih fun table _ row hrow other hother => ?_
    rw [eq_of_mem_keepUnlessExcluded hother]
    exact hrow
  | data _ htable ih =>
    refine Rows.all_flatMap ih fun row hrow list hlist other hother => ?_
    cases hlist
    exact hrow.of_joinTable (hasAllSlots_of_dataRows htable) hother
  | sort _ _ ih =>
    refine Rows.all_ofExcept fun list hlist row hrow => ?_
    obtain ⟨rows, hrows, rfl⟩ := map_eq_ok hlist
    exact ih.mem_of_toExcept hrows row ((sortRows_perm _ rows).mem_iff.mp hrow)
  | project _ slots ih =>
    refine Rows.all_flatMap ih fun row hrow list hlist other hother => ?_
    cases hlist
    rw [List.mem_singleton.mp hother]
    exact hrow.project slots
  | distinct _ ih => exact ih.unseen []
  | drop _ count ih => exact ih.drop count
  | take _ count ih => exact ih.take count

/-- An operator hands out rows that are as wide as the table of slots. -/
theorem IsOperator.hasAllSlots (h : IsOperator env c) (hrow : c.HandsOut row) :
    HasAllSlots env.names row := hrow.of_all h.all_hasAllSlots

/-! ## Plans are built of operators -/

/-- From what an operator starts with, the plan of a group, or of a group that an expression asks
for, is built of operators. -/
def PlansOperators (env : Env) : Part → Prop
  | .group g => ∀ seed c, IsOperator env (.ofList [seed]) → groupPlan env g seed = .ok c →
    IsOperator env c
  | .expr e => ∀ g, Asks e g → ∀ seed c, IsOperator env (.ofList [seed]) →
    groupPlan env g seed = .ok c → IsOperator env c

/-- The groups that an expression asks for are planned by operators for each row of an operator. -/
theorem PlansOperators.asked {e : Expr} (h : PlansOperators env (.expr e)) (hc : IsOperator env c) :
    ∀ g, Asks e g → ∀ row, c.HandsOut row → ∀ inner, groupPlan env g row = .ok inner →
      IsOperator env inner :=
  fun g hg row hrow inner hinner => h g hg row inner (.fed hc hrow) hinner

/-- Scans over an operator are an operator. -/
theorem IsOperator.planScans {patterns : List Pattern} {root : SolutionCursor}
    (hroot : IsOperator env root) (h : planScans env patterns root = .ok c) : IsOperator env c := by
  induction patterns generalizing root with
  | nil =>
    cases h
    exact hroot
  | cons p rest ih =>
    obtain ⟨scan, hscan, hrest⟩ := bind_eq_ok h
    exact ih (hroot.scan hscan) hrest

variable {d d' : Draft}

/-- Joining the waiting patterns to an operator makes an operator. -/
theorem IsOperator.joined (hd : IsOperator env d.root) (h : d.joined env = .ok d') :
    IsOperator env d'.root := by
  obtain ⟨root, hroot, rfl⟩ := map_eq_ok h
  exact hd.planScans hroot

/-- An element that is put on top is an operator on what the joined patterns hand out. -/
theorem IsOperator.onTop {binds : List String}
    {element : SolutionCursor → Except ExecutionError SolutionCursor} (hd : IsOperator env d.root)
    (helement : ∀ root c, IsOperator env root → element root = .ok c → IsOperator env c)
    (h : d.onTop env binds element = .ok d') : IsOperator env d'.root := by
  obtain ⟨joined, hjoined, h⟩ := bind_eq_ok h
  obtain ⟨root, hroot, rfl⟩ := map_eq_ok h
  exact helement _ _ (hd.joined hjoined) hroot

/-- An element makes an operator of an operator. -/
theorem IsOperator.elementPlan {element : Element}
    (hparts : ∀ p ∈ element.parts, PlansOperators env p) (hd : IsOperator env d.root)
    (h : elementPlan env element d = .ok d') : IsOperator env d'.root := by
  match element with
  | .triples _ | .filter _ =>
    cases h
    exact hd
  | .optional g =>
    have hplans := hparts _ List.mem_cons_self
    rw [Eval.elementPlan] at h
    refine hd.onTop (fun root c hroot hc => ?_) h
    cases hc
    exact hroot.optional fun row hrow inner hinner => hplans row inner (.fed hroot hrow) hinner
  | .union branches =>
    rw [Eval.elementPlan] at h
    refine hd.onTop (fun root c hroot hc => ?_) h
    cases hc
    exact hroot.union fun g hg inner hinner =>
      hparts _ (List.mem_map_of_mem hg) _ inner .alone hinner
  | .group g =>
    have hplans := hparts _ List.mem_cons_self
    rw [Eval.elementPlan] at h
    refine hd.onTop (fun root c hroot hc => ?_) h
    cases hc
    exact hroot.group fun inner hinner => hplans _ inner .alone hinner
  | .minus g =>
    have hplans := hparts _ List.mem_cons_self
    rw [Eval.elementPlan] at h
    refine hd.onTop (fun root c hroot hc => ?_) h
    cases hc
    exact hroot.minus fun inner hinner => hplans _ inner .alone hinner
  | .bind value name =>
    have hplans := hparts _ List.mem_cons_self
    rw [Eval.elementPlan] at h
    refine hd.onTop (fun root c hroot hc => ?_) h
    obtain ⟨slot, hslot, rfl⟩ := map_eq_ok hc
    exact hroot.extend hslot (PlansOperators.asked hplans hroot)
  | .data block =>
    rw [Eval.elementPlan] at h
    refine hd.onTop (fun root c hroot hc => ?_) h
    obtain ⟨table, htable, rfl⟩ := map_eq_ok hc
    exact hroot.data htable

/-- Elements in a row make an operator of an operator. -/
theorem IsOperator.elementsPlan {elements : List Element}
    (hparts : ∀ p ∈ elements.flatMap Element.parts, PlansOperators env p)
    (hd : IsOperator env d.root) (h : elementsPlan env elements d = .ok d') :
    IsOperator env d'.root := by
  induction elements generalizing d with
  | nil =>
    cases h
    exact hd
  | cons element rest ih =>
    obtain ⟨next, hnext, hrest⟩ := bind_eq_ok h
    rw [List.flatMap_cons] at hparts
    exact ih (fun p hp => hparts p (List.mem_append_right _ hp))
      (hd.elementPlan (fun p hp => hparts p (List.mem_append_left _ hp)) hnext) hrest

/-- The conditions of a group are operators on top of its elements. -/
theorem IsOperator.conditions {elements : List Element}
    (hparts : ∀ p ∈ elements.flatMap Element.parts, PlansOperators env p)
    (h : IsOperator env c) : IsOperator env ((planConditions env elements).foldl
      (fun root condition => root.filter condition.down.holds) c) := by
  induction elements generalizing c with
  | nil => exact h
  | cons element rest ih =>
    rw [List.flatMap_cons] at hparts
    have hrest := fun root => @ih root fun p hp => hparts p (List.mem_append_right _ hp)
    cases element with
    | filter e =>
      exact hrest _ (h.filter (PlansOperators.asked (hparts _ List.mem_cons_self) h))
    | triples _ | «optional» _ | union _ | group _ | minus _ | bind _ _ | data _ =>
      exact hrest _ h

/-- Whatever is planned for a row of an operator is built of operators. -/
theorem plansOperators (env : Env) (p : Part) : PlansOperators env p := by
  -- plans of a group are made of plans of the groups inside it, also inside its expressions
  induction p using Part.induct with
  | step p ih =>
    cases p with
    | group g =>
      obtain ⟨elements⟩ := g
      intro seed c hseed h
      obtain ⟨d, hd, rfl⟩ := map_eq_ok h
      obtain ⟨start, hstart, hjoined⟩ := bind_eq_ok hd
      exact ((IsOperator.elementsPlan ih hseed hstart).joined hjoined).conditions ih
    | expr e =>
      intro g hasks
      cases hasks with
      | here => exact ih _ List.mem_cons_self
      | inside hin hasks => exact ih _ hin g hasks

/-! ## Plans of queries -/

/-- Computing columns makes an operator of an operator. -/
theorem IsOperator.withItems {items : List SelectItem} {input : SolutionCursor}
    (hinput : IsOperator env input) (h : withItems env items input = .ok c) :
    IsOperator env c := by
  induction items generalizing input with
  | nil =>
    cases h
    exact hinput
  | cons item rest ih =>
    cases item with
    | var name => exact ih hinput h
    | expr value name =>
      obtain ⟨slot, hslot, hrest⟩ := bind_eq_ok h
      exact ih (hinput.extend hslot ((plansOperators env (.expr value)).asked hinput)) hrest

/-- Sorting makes an operator of an operator. -/
theorem IsOperator.sorted (h : IsOperator env c) (m : Modifiers) :
    IsOperator env (sorted env m c) := by
  unfold Eval.sorted
  split
  · exact h
  · exact h.sort fun condition _ => (plansOperators env (.expr condition.key)).asked h

/-- Slicing makes an operator of an operator. -/
theorem IsOperator.sliced (h : IsOperator env c) (m : Modifiers) :
    IsOperator env (sliced m c) := by
  have hdrop : IsOperator env (if m.offset = 0 then c else c.drop m.offset) := by
    split
    · exact h
    · exact h.drop _
  unfold Eval.sliced
  dsimp only
  split
  · exact hdrop.take _
  · exact hdrop

variable {q : Query}

/-- The pattern of a query is planned as an operator. -/
theorem isOperator_of_planPattern (h : planPattern env q = .ok c) : IsOperator env c := by
  obtain ⟨input, hinput, h⟩ := bind_eq_ok h
  have hgroup := plansOperators env (.group q.pattern) _ input .alone hinput
  split at h
  · obtain ⟨table, htable, rfl⟩ := map_eq_ok h
    exact hgroup.data htable
  · cases h
    exact hgroup

/-- The form of a query makes an operator of an operator. -/
theorem IsOperator.planForm {slots : List Nat} {input : SolutionCursor}
    (hinput : IsOperator env input) (h : planForm env q slots input = .ok c) :
    IsOperator env c := by
  cases hform : q.form with
  | ask =>
    rw [Eval.planForm, hform] at h
    cases h
    exact hinput
  | construct template =>
    rw [Eval.planForm, hform] at h
    cases h
    exact (hinput.sorted q.modifiers).sliced q.modifiers
  | select duplicates projection =>
    rw [planForm_select hform] at h
    obtain ⟨root, hroot, rfl⟩ := map_eq_ok h
    have hprojected := ((hinput.withItems hroot).sorted q.modifiers).project slots
    refine IsOperator.sliced ?_ q.modifiers
    split
    · exact hprojected
    · exact hprojected.distinct

/-- A query is planned as an operator. -/
theorem isOperator_of_plan {p : Plan} (h : plan env q = .ok p) : IsOperator env p.root := by
  obtain ⟨input, hinput, h⟩ := bind_eq_ok h
  obtain ⟨slots, -, h⟩ := bind_eq_ok h
  obtain ⟨root, hroot, rfl⟩ := map_eq_ok h
  exact (isOperator_of_planPattern hinput).planForm hroot

/-- Of a query that is read, every row that an operator hands out has one place for each variable,
also in the plans of groups that operators make on the way. The variables have one slot each, and
two such rows are the same exactly if they give each variable the same term. -/
theorem plan_keepsWidth {text : String} {q : Query} (hread : Query.read text = .ok q) (s : Store) :
    (∃ p rows, plan (envOf s q) q = .ok p ∧ IsOperator (envOf s q) p.root ∧
        p.root.toList = .ok rows ∧ ∀ row ∈ rows, p.root.HandsOut row) ∧
      (∀ g row c inner, IsOperator (envOf s q) c → c.HandsOut row →
        groupPlan (envOf s q) g row = .ok inner → IsOperator (envOf s q) inner) ∧
      (∀ c row, IsOperator (envOf s q) c → c.HandsOut row → row.length = (slots q).length) ∧
      IsNumbering (slots q) ∧
      ∀ c row c' row', IsOperator (envOf s q) c → c.HandsOut row → IsOperator (envOf s q) c' →
        c'.HandsOut row' →
          (row = row' ↔ ∀ v, (slots q).value? row v = (slots q).value? row' v) := by
  obtain ⟨root, hplan, hlists⟩ := plan_lists s (read_placed hread)
  refine ⟨⟨_, _, hplan, isOperator_of_plan hplan, hlists.toList_eq,
    fun row hrow => Cursor.handsOut_of_mem_toList hlists.toList_eq hrow⟩,
    fun g row c inner hc hrow hinner => ?_, fun c row hc hrow => hc.hasAllSlots hrow,
    isNumbering_of_nodup (nodup_slots q), fun c row c' row' hc hrow hc' hrow' => ?_⟩
  · exact plansOperators _ (.group g) row inner (.fed hc hrow) hinner
  · exact eq_iff_value? (nodup_slots q) (hc.hasAllSlots hrow) (hc'.hasAllSlots hrow')

/-- The text with something of everything has a plan on the refilled store. Its pattern is planned
from the row without terms that every plan starts with, and the rows of both plans are as wide. -/
theorem plan_keepsWidth_everyOperator :
    ∃ q p inner, Query.read everyOperator = .ok q ∧ plan (envOf Store.refilled q) q = .ok p ∧
      (∀ row, p.root.HandsOut row → row.length = (slots q).length) ∧
      (Cursor.ofList [Solution.unbound (slots q).length] : SolutionCursor).HandsOut
        (.unbound (slots q).length) ∧
      groupPlan (envOf Store.refilled q) q.pattern (.unbound (slots q).length) = .ok inner ∧
      ∀ row, inner.HandsOut row → row.length = (slots q).length := by
  obtain ⟨q, hread⟩ := exists_read_of_isAccepted isAccepted_everyOperator
  obtain ⟨⟨p, _, hplan, hroot, -, -⟩, hplans, hwidth, -⟩ := plan_keepsWidth hread Store.refilled
  have hplannable : IsPlannable (envOf Store.refilled q).names q.pattern :=
    (Part.isPlannable_of_read hread hasPart_pattern).group
  obtain ⟨inner, hinner, -⟩ := groupPlan_lists hplannable (.unbound (slots q).length)
  have hstart : (Cursor.ofList [Solution.unbound (slots q).length] : SolutionCursor).HandsOut
      (.unbound (slots q).length) := ⟨_, _, .start, rfl⟩
  exact ⟨q, p, inner, hread, hplan, fun row hrow => hwidth p.root row hroot hrow, hstart, hinner,
    fun row hrow => hwidth inner row (hplans _ _ _ inner .alone hstart hinner) hrow⟩

end RdfStore.Eval
