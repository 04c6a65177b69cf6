import RdfStore.Proofs.Eval.Merge
import RdfStore.Proofs.Eval.ScanChain

/-!
# How rows grow

A row of a group comes from the seed in steps. A scan fills slots of its pattern, a table adds what
its rows have, an assignment replaces what its slot holds, an optional group goes on from the row,
and `MINUS` and conditions only drop rows. So a row binds what the seed binds, and beyond that only
variables of the group; it gives every term of the seed again, except to variables that the group or
one of its optional groups assigns. All this holds row by row, for whatever is handed out before an
error.
-/

set_option autoImplicit false

namespace RdfStore.Eval

open Query Solution

/-! ## All rows that are handed out -/

namespace Rows

variable {ε α β : Type}

/-- Every row, up to the end or an error, has a property. -/
def All (p : α → Prop) : Rows ε α → Prop
  | done | failed _ => True
  | row a rest => p a ∧ rest.All p

/-- Rows in front have the property if they have it and the others have it. -/
theorem all_prepend {p : α → Prop} {front : List α} {r : Rows ε α} (hfront : ∀ a ∈ front, p a)
    (hr : r.All p) : (prepend front r).All p := by
  induction front with
  | nil => exact hr
  | cons a front ih =>
    exact ⟨hfront a List.mem_cons_self, ih fun b hb => hfront b (List.mem_cons_of_mem a hb)⟩

/-- Replacements have a property if those of every row do. -/
theorem all_flatMap {p : α → Prop} {q : β → Prop} {f : α → Except ε (List β)} {r : Rows ε α}
    (hr : r.All p) (hf : ∀ a, p a → ∀ list, f a = .ok list → ∀ b ∈ list, q b) :
    (r.flatMap f).All q := by
  induction r with
  | done => trivial
  | failed e => trivial
  | row a rest ih =>
    unfold flatMap
    split
    · rename_i list hlist
      exact all_prepend (hf a hr.1 list hlist) (ih hr.2)
    · trivial

/-- What holds of everything holds of all rows. -/
theorem all_of_forall {p : α → Prop} (h : ∀ a, p a) (r : Rows ε α) : r.All p := by
  induction r with
  | done => trivial
  | failed e => trivial
  | row a rest ih => exact ⟨h a, ih⟩

/-- All rows that have a property have any weaker one. -/
theorem All.imp {p q : α → Prop} {r : Rows ε α} (hr : r.All p) (h : ∀ a, p a → q a) :
    r.All q := by
  induction r with
  | done => trivial
  | failed e => trivial
  | row a rest ih => exact ⟨h a hr.1, ih hr.2⟩

/-- A condition only drops rows. -/
theorem All.filter {p : α → Prop} {r : Rows ε α} (hr : r.All p) (keep : α → Bool) :
    (r.filter keep).All p := by
  refine all_flatMap hr fun a ha list hlist b hb => ?_
  cases hlist
  split at hb
  · rw [List.mem_singleton.mp hb]
    exact ha
  · exact absurd hb List.not_mem_nil

/-- What is read to its end has the property of all rows. -/
theorem All.mem_of_toExcept {p : α → Prop} {r : Rows ε α} (hr : r.All p) {list : List α}
    (h : r.toExcept = .ok list) : ∀ a ∈ list, p a := by
  induction r generalizing list with
  | done =>
    cases h
    exact fun a ha => absurd ha List.not_mem_nil
  | failed e => cases h
  | row b rest ih =>
    obtain ⟨others, hrest, rfl⟩ := map_eq_ok h
    intro a ha
    rcases List.mem_cons.mp ha with rfl | ha
    · exact hr.1
    · exact ih hr.2 hrest a ha

end Rows

/-- What is pulled from a cursor has the property of all rows that remain. -/
theorem Cursor.mem_of_pull {ε α : Type} {p : α → Prop} (c : Cursor ε α) {count : Nat}
    {s t : c.State} {list : List α} (hs : (c.remaining s).All p)
    (h : c.pull count s = .ok (list, t)) : ∀ a ∈ list, p a := by
  induction count generalizing s list with
  | zero =>
    cases h
    exact fun a ha => absurd ha List.not_mem_nil
  | succ count ih =>
    unfold pull at h
    split at h
    · cases h
    · cases h
      exact fun a ha => absurd ha List.not_mem_nil
    · rename_i b u hnext
      rw [remaining_of_some hnext] at hs
      obtain ⟨pulled, hrest, heq⟩ := map_eq_ok h
      cases heq
      intro a ha
      rcases List.mem_cons.mp ha with rfl | ha
      · exact hs.1
      · exact ih hs.2 hrest a ha

/-! ## Assigned variables -/

mutual

/-- The variables that a group assigns in the rows that come from its seed. -/
def assignedVars : Group → List String
  | .mk elements => elementAssigned elements

/-- The variables that elements assign in the rows that come to them. -/
def elementAssigned : List Element → List String
  | [] => []
  | .bind _ name :: rest => name :: elementAssigned rest
  | .optional group :: rest => assignedVars group ++ elementAssigned rest
  | _ :: rest => elementAssigned rest

end

/-- A row has a term wherever another has one, and the same term except in the slots of the
given variables. -/
structure KeepsBut (names : Slots) (assigned : List String) (row other : Solution) : Prop where
  binds : ∀ n, row.Binds n → other.Binds n
  get?_eq : ∀ n t, row.get? n = some t → (∀ v ∈ assigned, names.slot? v ≠ some n) →
    other.get? n = some t

variable {names : Slots} {assigned more : List String} {row middle other : Solution}

/-- A row keeps all its own values. -/
theorem KeepsBut.refl (names : Slots) (assigned : List String) (row : Solution) :
    KeepsBut names assigned row row :=
  ⟨fun _ h => h, fun _ _ h _ => h⟩

/-- What is kept in two steps is kept in both together. -/
theorem KeepsBut.trans (h : KeepsBut names assigned row middle)
    (h' : KeepsBut names assigned middle other) : KeepsBut names assigned row other :=
  ⟨fun n hn => h'.binds n (h.binds n hn),
    fun n t ht hfree => h'.get?_eq n t (h.get?_eq n t ht hfree) hfree⟩

/-- With more exceptions no less is kept. -/
theorem KeepsBut.mono (h : KeepsBut names assigned row other)
    (hsub : ∀ v ∈ assigned, v ∈ more) : KeepsBut names more row other :=
  ⟨h.binds, fun n t ht hfree => h.get?_eq n t ht fun v hv => hfree v (hsub v hv)⟩

/-- A row that gives every term of another keeps it, whatever may be assigned. -/
theorem keepsBut_of_get? (h : ∀ n t, row.get? n = some t → other.get? n = some t) :
    KeepsBut names assigned row other := by
  refine ⟨fun n hn => ?_, fun n t ht _ => h n t ht⟩
  obtain ⟨t, ht⟩ := Option.isSome_iff_exists.mp hn
  exact Option.isSome_iff_exists.mpr ⟨t, h n t ht⟩

/-- Assigned variables are those of the elements one by one. -/
theorem elementAssigned_cons (element : Element) (rest : List Element) :
    elementAssigned (element :: rest) = elementAssigned [element] ++ elementAssigned rest := by
  cases element <;> simp [elementAssigned]

/-! ## Growing -/

/-- The slot is that of one of the variables. -/
def IsSlotOf (names : Slots) (vars : List String) (n : Nat) : Prop :=
  ∃ v ∈ vars, names.slot? v = some n

/-- A slot of some variables is a slot of more of them. -/
theorem IsSlotOf.mono {vars moreVars : List String} {n : Nat} (h : IsSlotOf names vars n)
    (hsub : ∀ v ∈ vars, v ∈ moreVars) : IsSlotOf names moreVars n := by
  obtain ⟨v, hv, hslot⟩ := h
  exact ⟨v, hsub v hv, hslot⟩

/-- A row keeps another, but for the assigned variables, and beyond it binds only given ones. -/
structure Grows (names : Slots) (assigned vars : List String) (row other : Solution) : Prop
    extends KeepsBut names assigned row other where
  only : ∀ n, other.Binds n → row.Binds n ∨ IsSlotOf names vars n

namespace Grows

variable {vars moreVars : List String}

/-- A row grows out of itself. -/
theorem refl (names : Slots) (assigned vars : List String) (row : Solution) :
    Grows names assigned vars row row :=
  ⟨.refl names assigned row, fun _ h => Or.inl h⟩

/-- Two steps of growth are one. -/
theorem trans (h : Grows names assigned vars row middle)
    (h' : Grows names assigned vars middle other) : Grows names assigned vars row other := by
  refine ⟨h.toKeepsBut.trans h'.toKeepsBut, fun n hn => ?_⟩
  rcases h'.only n hn with hn | hn
  · exact h.only n hn
  · exact Or.inr hn

/-- Growth over some variables is growth over more of them. -/
theorem mono (h : Grows names assigned vars row other) (hassigned : ∀ v ∈ assigned, v ∈ more)
    (hvars : ∀ v ∈ vars, v ∈ moreVars) : Grows names more moreVars row other :=
  ⟨h.toKeepsBut.mono hassigned, fun n hn => (h.only n hn).imp_right fun hs => hs.mono hvars⟩

/-- A scan fills slots of its pattern. -/
theorem of_scan {p : Pattern} {scan : Scan} {s : Store}
    (hscan : Scan.ofPattern names p = .ok scan) (h : other ∈ scan.rows s row) :
    Grows names assigned p.vars row other := by
  obtain ⟨m, -, haccept⟩ := List.mem_filterMap.mp h
  refine ⟨keepsBut_of_get? fun n t => Scan.get?_of_accept? haccept, fun n hn => ?_⟩
  rw [Scan.binds_of_accept? haccept, mem_slots_ofPattern hscan] at hn
  exact hn

/-- A merge adds what the row of the table has. -/
theorem of_joinTable {table : List Solution}
    (htable : ∀ r ∈ table, ∀ n, r.Binds n → IsSlotOf names vars n)
    (h : other ∈ joinTable table row) : Grows names assigned vars row other := by
  obtain ⟨r, hr, hmerge⟩ := List.mem_filterMap.mp h
  unfold merge? at hmerge
  split at hmerge
  · cases hmerge
    refine ⟨keepsBut_of_get? fun n t ht => ?_, fun n hn => ?_⟩
    · rw [get?_overlay, ht]
      rfl
    · unfold Binds at hn ⊢
      rw [get?_overlay, Option.isSome_or, Bool.or_eq_true] at hn
      exact hn.imp_right (htable r hr n)
  · cases hmerge

/-- An assignment replaces what its slot holds. -/
theorem of_assign {name : String} {slot : Nat} (hslot : names.slot? name = some slot)
    (value : Valuation) (row : Solution) : Grows names [name] [name] row (assign slot value row) := by
  unfold assign
  split
  · rename_i t ht
    refine ⟨⟨fun n hn => (binds_bind row slot t n).mpr (Or.inl hn), fun n u hu hfree => ?_⟩,
      fun n hn => ?_⟩
    · rw [get?_bind, if_neg]
      · exact hu
      · rintro rfl
        exact hfree name List.mem_cons_self hslot
    · rcases (binds_bind row slot t n).mp hn with hn | rfl
      · exact Or.inl hn
      · exact Or.inr ⟨name, List.mem_cons_self, hslot⟩
  · exact refl names [name] [name] row

/-- Rows that grow from nothing bind only the given variables. -/
theorem isSlotOf {width n : Nat} (h : Grows names assigned vars (.unbound width) row)
    (hn : row.Binds n) : IsSlotOf names vars n := by
  refine (h.only n hn).resolve_left fun hfree => ?_
  unfold Binds at hfree
  rw [get?_unbound] at hfree
  cases hfree

end Grows

/-! ## Inline data -/

/-- The slots that are looked up for variables are the slots of these variables. -/
theorem isSlotOf_of_slotsOf {vars : List String} {slots : List Nat}
    (h : names.slotsOf vars = .ok slots) : ∀ n ∈ slots, IsSlotOf names vars n := by
  induction vars generalizing slots with
  | nil =>
    cases h
    exact fun n hn => absurd hn List.not_mem_nil
  | cons name rest ih =>
    obtain ⟨slot, hslot, h⟩ := bind_eq_ok h
    obtain ⟨others, hothers, h⟩ := bind_eq_ok h
    cases h
    intro n hn
    rcases List.mem_cons.mp hn with rfl | hn
    · exact ⟨name, List.mem_cons_self, slot?_of_slotOf hslot⟩
    · exact (ih hothers n hn).mono fun v hv => List.mem_cons_of_mem _ hv

/-- What is bound one entry after the other is bound by some entry. -/
theorem binds_foldl {step : Solution → Nat × Option Term → Solution}
    (hstep : ∀ row entry n, (step row entry).Binds n → row.Binds n ∨ n = entry.1)
    {entries : List (Nat × Option Term)} {n : Nat}
    (h : (entries.foldl step row).Binds n) : row.Binds n ∨ n ∈ entries.map Prod.fst := by
  induction entries generalizing row with
  | nil => exact Or.inl h
  | cons entry rest ih =>
    rw [List.map_cons, List.mem_cons]
    rcases ih h with h | h
    · exact (hstep row entry n h).imp_right Or.inl
    · exact Or.inr (Or.inr h)

/-- A row of inline data has terms in its slots only. -/
theorem binds_dataRow {width : Nat} {slots : List Nat} {values : List (Option Term)} {n : Nat}
    (h : (dataRow width slots values).Binds n) : n ∈ slots := by
  unfold dataRow at h
  have hbound := binds_foldl (fun row entry m hm => by
    split at hm
    · exact (binds_bind _ _ _ _).mp hm
    · exact Or.inl hm) h
  rcases hbound with hn | hn
  · unfold Binds at hn
    rw [get?_unbound] at hn
    cases hn
  · obtain ⟨entry, hentry, rfl⟩ := List.mem_map.mp hn
    exact (List.of_mem_zip hentry).1

/-- The rows that are made of inline data bind the slots of its columns only. -/
theorem isSlotOf_of_dataRows {block : DataBlock} {table : List Solution}
    (h : dataRows names block = .ok table) :
    ∀ row ∈ table, ∀ n, row.Binds n → IsSlotOf names block.vars n := by
  obtain ⟨slots, hslots, rfl⟩ := map_eq_ok h
  intro row hrow n hn
  obtain ⟨values, -, rfl⟩ := List.mem_map.mp hrow
  exact isSlotOf_of_slotsOf hslots n (binds_dataRow hn)

/-! ## One element -/

/-- The row or its extensions have a property if the row and the extensions do. -/
theorem of_mem_orKeep {kept : Solution → Prop} {extensions : List Solution} (hrow : kept row)
    (h : ∀ other ∈ extensions, kept other) : ∀ other ∈ orKeep row extensions, kept other := by
  cases extensions with
  | nil =>
    intro other hother
    rw [List.mem_singleton.mp hother]
    exact hrow
  | cons first rest => exact h

/-- What a table leaves of a row is the row itself. -/
theorem eq_of_mem_keepUnlessExcluded {table : List Solution}
    (h : other ∈ keepUnlessExcluded table row) : other = row := by
  unfold keepUnlessExcluded at h
  split at h
  · exact absurd h List.not_mem_nil
  · exact List.mem_singleton.mp h

/-- What can become of a row at an element. -/
def Replaces (env : Env) : Element → Solution → Solution → Prop
  | .triples _, row, other | .filter _, row, other | .minus _, row, other => other = row
  | .optional g, row, other => ∃ list,
    (groupRows env g row).bind Rows.toExcept = .ok list ∧ other ∈ orKeep row list
  | .union branches, row, other => ∃ table,
    branchRows env branches = .ok table ∧ other ∈ joinTable table row
  | .group g, row, other => ∃ table,
    (groupRows env g (.unbound env.names.length)).bind Rows.toExcept = .ok table ∧
      other ∈ joinTable table row
  | .bind value name, row, other => ∃ slot, env.names.slot? name = some slot ∧
    other = assign slot (valueAt env value) row
  | .data block, row, other => ∃ table,
    dataRows env.names block = .ok table ∧ other ∈ joinTable table row

variable {env : Env} {seed : Solution} {rows rows' : Rows ExecutionError Solution}

/-- A table replaces rows by what it gives for them. -/
theorem all_tableRows {kept : Solution → Prop} {table : Except ExecutionError (List Solution)}
    {f : List Solution → Solution → List Solution} (hrows : rows.All kept)
    (hf : ∀ list, table = .ok list → ∀ row, kept row → ∀ other ∈ f list row, kept other) :
    (tableRows table f rows).All kept := by
  unfold tableRows
  split
  · trivial
  · rename_i list
    refine Rows.all_flatMap hrows fun row hrow others hothers => ?_
    cases hothers
    exact hf list rfl row hrow

/-- An element adds its patterns to those that wait, or it joins those that wait and then replaces
every row. -/
theorem elementRows_cons {element : Element} {rest : List Element} {bound : List String}
    {waiting : List Pattern}
    (h : elementRows env (element :: rest) bound waiting rows = .ok rows') :
    elementRows env rest bound (waiting ++ element.patterns) rows = .ok rows' ∨
      ∃ joined mid bound', element.patterns = [] ∧
        scanRows env (joinOrder bound waiting) rows = .ok joined ∧
        elementRows env rest bound' [] mid = .ok rows' ∧
        ∀ kept : Solution → Prop, joined.All kept →
          (∀ row other, kept row → Replaces env element row other → kept other) →
          mid.All kept := by
  match element with
  | .triples patterns => exact Or.inl h
  | .filter condition =>
    left
    show elementRows env rest bound (waiting ++ []) rows = .ok rows'
    rw [List.append_nil]
    exact h
  | .optional g =>
    obtain ⟨joined, hscan, hnext⟩ := bind_eq_ok h
    refine Or.inr ⟨joined, _, _, rfl, hscan, hnext, fun kept hjoined hkept => ?_⟩
    refine Rows.all_flatMap hjoined fun row hrow list hlist other hother => ?_
    obtain ⟨extensions, hextensions, rfl⟩ := map_eq_ok hlist
    exact hkept row other hrow ⟨extensions, hextensions, hother⟩
  | .union _ | .group _ =>
    obtain ⟨joined, hscan, hnext⟩ := bind_eq_ok h
    refine Or.inr ⟨joined, _, _, rfl, hscan, hnext, fun kept hjoined hkept => ?_⟩
    exact all_tableRows hjoined fun list hlist row hrow other hother =>
      hkept row other hrow ⟨list, hlist, hother⟩
  | .minus g =>
    obtain ⟨joined, hscan, hnext⟩ := bind_eq_ok h
    refine Or.inr ⟨joined, _, _, rfl, hscan, hnext, fun kept hjoined hkept => ?_⟩
    exact all_tableRows hjoined fun list hlist row hrow other hother =>
      hkept row other hrow (eq_of_mem_keepUnlessExcluded hother)
  | .bind value name =>
    obtain ⟨joined, hscan, hnext⟩ := bind_eq_ok h
    obtain ⟨slot, hslot, hnext⟩ := bind_eq_ok hnext
    refine Or.inr ⟨joined, _, _, rfl, hscan, hnext, fun kept hjoined hkept => ?_⟩
    refine Rows.all_flatMap hjoined fun row hrow list hlist other hother => ?_
    cases hlist
    exact hkept row other hrow ⟨slot, slot?_of_slotOf hslot, List.mem_singleton.mp hother⟩
  | .data block =>
    obtain ⟨joined, hscan, hnext⟩ := bind_eq_ok h
    obtain ⟨table, htable, hnext⟩ := bind_eq_ok hnext
    refine Or.inr ⟨joined, _, _, rfl, hscan, hnext, fun kept hjoined hkept => ?_⟩
    refine Rows.all_flatMap hjoined fun row hrow list hlist other hother => ?_
    cases hlist
    exact hkept row other hrow ⟨table, htable, hother⟩

/-! ## Whole groups -/

/-- Scans keep what is kept while rows grow by the variables of their patterns. -/
theorem scanRows_all {patterns : List Pattern} {vars : List String} {kept : Solution → Prop}
    (hkept : ∀ row other, kept row → Grows env.names assigned vars row other → kept other)
    (hvars : ∀ p ∈ patterns, ∀ v ∈ p.vars, v ∈ vars)
    (h : scanRows env patterns rows = .ok rows') (hrows : rows.All kept) : rows'.All kept := by
  induction patterns generalizing rows with
  | nil =>
    cases h
    exact hrows
  | cons p rest ih =>
    obtain ⟨scan, hscan, hrest⟩ := bind_eq_ok h
    refine ih (fun q hq => hvars q (List.mem_cons_of_mem _ hq)) hrest ?_
    refine Rows.all_flatMap hrows fun row hrow list hlist other hother => ?_
    cases hlist
    exact hkept row other hrow
      ((Grows.of_scan hscan hother).mono (fun _ hv => hv) (hvars p List.mem_cons_self))

/-- The table of a group that starts from nothing binds only the variables of the group. -/
theorem isSlotOf_of_table {g : Group} {table : List Solution} {width : Nat}
    (hgroup : ∀ rows, groupRows env g (.unbound width) = .ok rows →
      rows.All (Grows env.names (assignedVars g) g.vars (.unbound width)))
    (h : (groupRows env g (.unbound width)).bind Rows.toExcept = .ok table) :
    ∀ row ∈ table, ∀ n, row.Binds n → IsSlotOf env.names g.vars n := by
  obtain ⟨rows, hrows, hall⟩ := bind_eq_ok h
  intro row hrow n hn
  exact ((hgroup rows hrows).mem_of_toExcept hall row hrow).isSlotOf hn

mutual

/-- The rows of a group grow from the seed by the variables of the group. -/
theorem groupRows_grows (env : Env) (g : Group) (seed : Solution)
    {rows : Rows ExecutionError Solution} (h : groupRows env g seed = .ok rows) :
    rows.All (Grows env.names (assignedVars g) g.vars seed) := by
  match g with
  | .mk elements =>
    obtain ⟨unfiltered, helements, rfl⟩ := map_eq_ok h
    refine Rows.All.filter ?_ _
    exact elementRows_all env elements (fun _ _ h h' => h.trans h') (fun _ hv => hv)
      (fun _ hv => hv) (fun _ hp => absurd hp List.not_mem_nil) helements
      ⟨.refl _ _ _ seed, trivial⟩

/-- Elements keep what is kept while rows grow by their variables and those of the patterns that
wait. -/
theorem elementRows_all (env : Env) (elements : List Element) {assigned vars : List String}
    {kept : Solution → Prop} {bound : List String} {waiting : List Pattern}
    {rows rows' : Rows ExecutionError Solution}
    (hkept : ∀ row other, kept row → Grows env.names assigned vars row other → kept other)
    (hassigned : ∀ v ∈ elementAssigned elements, v ∈ assigned)
    (hvars : ∀ v ∈ addElementVars [] elements, v ∈ vars)
    (hwaiting : ∀ p ∈ waiting, ∀ v ∈ p.vars, v ∈ vars)
    (h : elementRows env elements bound waiting rows = .ok rows') (hrows : rows.All kept) :
    rows'.All kept := by
  have hordered : ∀ p ∈ joinOrder bound waiting, ∀ v ∈ p.vars, v ∈ vars :=
    fun p hp => hwaiting p ((joinOrder_perm bound waiting).mem_iff.mp hp)
  match elements with
  | [] => exact scanRows_all hkept hordered h hrows
  | element :: rest =>
    rw [elementAssigned_cons] at hassigned
    have hassignedRest : ∀ v ∈ elementAssigned rest, v ∈ assigned :=
      fun v hv => hassigned v (List.mem_append_right _ hv)
    have hvarsFirst : ∀ v ∈ element.addVars [], v ∈ vars :=
      fun v hv => hvars v ((mem_addElementVars rest).mpr (Or.inl hv))
    have hvarsRest : ∀ v ∈ addElementVars [] rest, v ∈ vars :=
      fun v hv => hvars v ((mem_addElementVars rest).mpr (Or.inr hv))
    -- the patterns that wait grow by those of the element, or they are joined and none waits
    rcases elementRows_cons h with h | ⟨joined, mid, bound', -, hscan, hrest, hmid⟩
    · refine elementRows_all env rest hkept hassignedRest hvarsRest (fun p hp v hv => ?_) h hrows
      rcases List.mem_append.mp hp with hp | hp
      · exact hwaiting p hp v hv
      · exact hvarsFirst v (mem_addVars_of_mem_patterns hp hv)
    · have hjoined : joined.All kept := scanRows_all hkept hordered hscan hrows
      refine elementRows_all env rest hkept hassignedRest hvarsRest
        (fun _ hp => absurd hp List.not_mem_nil) hrest (hmid kept hjoined fun row other hrow hr => ?_)
      exact hkept row other hrow ((replaces_grows env element hr).mono
        (fun v hv => hassigned v (List.mem_append_left _ hv)) hvarsFirst)

/-- What can become of a row at an element grows from it by the variables of the element. -/
theorem replaces_grows (env : Env) (element : Element) {row other : Solution}
    (h : Replaces env element row other) :
    Grows env.names (elementAssigned [element]) (element.addVars []) row other := by
  match element with
  | .triples _ | .filter _ | .minus _ =>
    cases h
    exact .refl _ _ _ row
  | .optional g =>
    obtain ⟨list, hlist, hother⟩ := h
    obtain ⟨rows, hrows, hall⟩ := bind_eq_ok hlist
    have hgroup := (groupRows_grows env g row hrows).mem_of_toExcept hall
    exact (of_mem_orKeep (.refl _ _ _ row) hgroup other hother).mono
      (fun v hv => List.mem_append_left _ hv) fun v hv => hv
  | .union branches =>
    obtain ⟨table, htable, hother⟩ := h
    exact .of_joinTable (branchRows_isSlotOf env branches htable) hother
  | .group g =>
    obtain ⟨table, htable, hother⟩ := h
    exact .of_joinTable (isSlotOf_of_table (fun _ hrows => groupRows_grows env g _ hrows) htable)
      hother
  | .bind value name =>
    obtain ⟨slot, hslot, rfl⟩ := h
    exact .of_assign hslot _ row
  | .data block =>
    obtain ⟨table, htable, hother⟩ := h
    refine (Grows.of_joinTable (isSlotOf_of_dataRows htable) hother).mono (fun _ hv => hv) ?_
    exact fun v hv => mem_insertNames.mpr (Or.inr hv)

/-- The table of branches binds only the variables of the branches. -/
theorem branchRows_isSlotOf (env : Env) (branches : List Group) {table : List Solution}
    (h : branchRows env branches = .ok table) :
    ∀ row ∈ table, ∀ n, row.Binds n → IsSlotOf env.names (addBranchVars [] branches) n := by
  match branches with
  | [] =>
    cases h
    exact fun row hrow => absurd hrow List.not_mem_nil
  | branch :: rest =>
    obtain ⟨first, hfirst, h⟩ := bind_eq_ok h
    obtain ⟨others, hrest, rfl⟩ := map_eq_ok h
    intro row hrow n hn
    rcases List.mem_append.mp hrow with hrow | hrow
    · refine (isSlotOf_of_table (fun _ hrows => groupRows_grows env branch _ hrows) hfirst row
        hrow n hn).mono fun v hv => ?_
      exact (mem_addBranchVars rest).mpr (Or.inl hv)
    · refine (branchRows_isSlotOf env rest hrest row hrow n hn).mono fun v hv => ?_
      exact (mem_addBranchVars rest).mpr (Or.inr hv)

end

end RdfStore.Eval
