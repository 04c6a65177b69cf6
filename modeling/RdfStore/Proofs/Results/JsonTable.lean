import RdfStore.Proofs.Outcome
import RdfStore.Results.Format

/-!
# JSON tables are read back

A member of an object is found by its name, in whatever order the members were given. So a term is
read back from its object, a row from its members, and a table from the list of its columns and
the objects of its rows. A column that stands twice has one member only: that is enough when a row
gives every name one value.
-/

set_option autoImplicit false

namespace RdfStore.Results

/-! ## Readers -/

namespace Json

def member? (name : String) : Json → Option Json
  | .object members => members.lookup name
  | _ => none

def string? : Json → Option String
  | .string s => some s
  | _ => none

def items? : Json → Option (List Json)
  | .array items => some items
  | _ => none

/-- The text of a member that is a string. -/
def text? (name : String) (j : Json) : Option String := (j.member? name).bind string?

end Json

/-- What the members of a literal say about its kind. -/
def literalKind (j : Json) : LiteralKind :=
  match j.text? "xml:lang", j.text? "datatype" with
  | some language, _ => .tagged language
  | none, some datatype => .typed ⟨datatype⟩
  | none, none => .plain

/-- The term of an object. -/
def termOf? (j : Json) : Option Term := do
  let kind ← j.text? "type"
  let value ← j.text? "value"
  if kind = "uri" then some (.iri ⟨value⟩)
  else if kind = "bnode" then some (.blank ⟨value⟩)
  else if kind = "literal" then some (.literal ⟨value, literalKind j⟩)
  else none

/-- The value of a column: none if the row has no member for it. -/
def valueOf? (j : Json) (name : String) : Option (Option Term) :=
  match j.member? name with
  | none => some none
  | some value => (termOf? value).map some

/-- The columns and the rows of an object. -/
def tableOf? (j : Json) : Option (List String × List Row) := do
  let vars ← ((← j.member? "head").member? "vars").bind Json.items?
  let columns ← vars.mapM Json.string?
  let bindings ← ((← j.member? "results").member? "bindings").bind Json.items?
  let rows ← bindings.mapM fun row => columns.mapM (valueOf? row)
  return (columns, rows)

/-! ## Members -/

namespace Json

/-- A member in front is the one that is found by its name. -/
theorem lookup_front (name other : String) (value : Json) (members : List (String × Json)) :
    ((name, value) :: members).lookup other =
      if other = name then some value else members.lookup other := by
  rw [List.lookup_cons]
  by_cases h : other = name
  · rw [if_pos h, beq_iff_eq.mpr h]
  · rw [if_neg h, beq_eq_false_iff_ne.mpr h]

/-- A member that is put in is found by its name, and the other ones as before. -/
theorem lookup_insertMember (name other : String) (value : Json) (members : List (String × Json)) :
    (insertMember name value members).lookup other =
      if other = name then some value else members.lookup other := by
  induction members with
  | nil => exact lookup_front name other value []
  | cons member rest ih =>
    obtain ⟨key, old⟩ := member
    unfold insertMember
    split
    · rw [lookup_front]
    · rename_i heq
      obtain rfl : name = key := Std.compare_eq_iff_eq.mp heq
      rw [lookup_front, lookup_front]
      split <;> rfl
    · rename_i hgt
      -- the new member goes further back, behind one of another name
      have hne : name ≠ key := by
        rintro rfl
        rw [Std.compare_self] at hgt
        cases hgt
      rw [lookup_front, lookup_front, ih]
      by_cases hother : other = key
      · rw [if_pos hother, if_pos hother, if_neg fun heq => hne (heq.symm.trans hother)]
      · rw [if_neg hother, if_neg hother]

/-- Members that all have the value of their name are found with it. -/
theorem lookup_foldl_insertMember {value : String → Option Json} {members : List (String × Json)}
    (h : ∀ m ∈ members, value m.1 = some m.2) (name : String) (done : List (String × Json)) :
    (members.foldl (fun done m => insertMember m.1 m.2 done) done).lookup name =
      if name ∈ members.map Prod.fst then value name else done.lookup name := by
  induction members generalizing done with
  | nil => rfl
  | cons m rest ih =>
    rw [List.foldl_cons, ih fun n hn => h n (List.mem_cons_of_mem _ hn), lookup_insertMember]
    have hm := h m List.mem_cons_self
    simp only [List.map_cons, List.mem_cons]
    -- a later member of the same name comes instead of this one, with the same value
    by_cases hrest : name ∈ rest.map Prod.fst
    · rw [if_pos hrest, if_pos (Or.inr hrest)]
    · by_cases hname : name = m.1
      · rw [if_neg hrest, if_pos hname, if_pos (Or.inl hname), hname, hm]
      · rw [if_neg hrest, if_neg hname, if_neg (not_or.mpr ⟨hname, hrest⟩)]

/-- The members of an object, each with the value of its name, are found with it. -/
theorem member?_ofMembers {value : String → Option Json} {members : List (String × Json)}
    (h : ∀ m ∈ members, value m.1 = some m.2) (name : String) :
    (ofMembers members).member? name =
      if name ∈ members.map Prod.fst then value name else none :=
  lookup_foldl_insertMember h name []

/-- An object with one member has its value under its name. -/
theorem member?_ofMembers_singleton (name : String) (value : Json) :
    (ofMembers [(name, value)]).member? name = some value :=
  (lookup_front name name value []).trans (if_pos rfl)

end Json

/-! ## Terms -/

/-- A term is read back from its object. -/
theorem termOf?_jsonTerm (t : Term) : termOf? (jsonTerm t) = some t := by
  rcases t with i | b | ⟨value, kind⟩
  · simp [termOf?, jsonTerm, Json.text?, Json.member?, Json.ofMembers, Json.lookup_insertMember,
      Json.string?]
  · simp [termOf?, jsonTerm, Json.text?, Json.member?, Json.ofMembers, Json.lookup_insertMember,
      Json.string?]
  · cases kind <;>
      simp [termOf?, jsonTerm, literalMembers, literalKind, Json.text?, Json.member?,
        Json.ofMembers, Json.lookup_insertMember, Json.string?]

/-! ## Rows -/

section Tables

variable {columns : List String} {rows : List Row}

/-- The bindings of a row are the columns with a value. -/
theorem mem_bindings {value : String → Option Term} {b : String × Term} :
    b ∈ bindings columns (columns.map value) ↔ b.1 ∈ columns ∧ value b.1 = some b.2 := by
  rw [bindings, ← List.map_prod_left_eq_zip, List.mem_filterMap]
  constructor
  · rintro ⟨entry, hentry, hb⟩
    obtain ⟨name, hname, rfl⟩ := List.mem_map.mp hentry
    obtain ⟨t, hvalue, rfl⟩ := Option.map_eq_some_iff.mp hb
    exact ⟨hname, hvalue⟩
  · rintro ⟨hname, hvalue⟩
    exact ⟨(b.1, value b.1), List.mem_map_of_mem hname, by rw [hvalue]; rfl⟩

/-- The object of a row has under each column the object of its value. -/
theorem member?_jsonRow {value : String → Option Term} {name : String} (hname : name ∈ columns) :
    (jsonRow columns (columns.map value)).member? name = (value name).map jsonTerm := by
  have hmembers : ∀ m ∈ (bindings columns (columns.map value)).map fun b => (b.1, jsonTerm b.2),
      (value m.1).map jsonTerm = some m.2 := by
    intro m hm
    obtain ⟨b, hb, rfl⟩ := List.mem_map.mp hm
    exact congrArg (Option.map jsonTerm) (mem_bindings.mp hb).2
  rw [jsonRow, @Json.member?_ofMembers (fun name => (value name).map jsonTerm) _ hmembers]
  split
  · rfl
  · rename_i hmissing
    -- a column with a value has a member
    cases hvalue : value name with
    | none => rfl
    | some t =>
      refine absurd ?_ hmissing
      have hb : (name, t) ∈ bindings columns (columns.map value) := mem_bindings.mpr ⟨hname, hvalue⟩
      exact List.mem_map.mpr ⟨_, List.mem_map_of_mem hb, rfl⟩

/-- The value of a column is read back from the object of a row. -/
theorem valueOf?_jsonRow {value : String → Option Term} {name : String} (hname : name ∈ columns) :
    valueOf? (jsonRow columns (columns.map value)) name = some (value name) := by
  rw [valueOf?, member?_jsonRow hname]
  cases value name with
  | none => rfl
  | some t =>
    show (termOf? (jsonTerm t)).map some = _
    rw [termOf?_jsonTerm]
    rfl

/-- A table is read back from its object: its columns, its rows and all their values. -/
theorem tableOf?_jsonTable (h : ∀ row ∈ rows, ∃ value, row = columns.map value) :
    tableOf? (jsonTable columns rows) = some (columns, rows) := by
  have hvars : (columns.map Json.string).mapM Json.string? = some columns := by
    rw [mapM_map_eq_some (f := Json.string?) (k := id) fun _ _ => rfl, List.map_id]
  have hrows : (rows.map (jsonRow columns)).mapM (fun row => columns.mapM (valueOf? row)) =
      some rows := by
    rw [mapM_map_eq_some (k := id), List.map_id]
    intro row hrow
    obtain ⟨value, rfl⟩ := h row hrow
    have hcolumns := mapM_map_eq_some (f := valueOf? (jsonRow columns (columns.map value)))
      (g := id) (k := value) fun name hname => valueOf?_jsonRow hname
    rwa [List.map_id] at hcolumns
  have hhead : (jsonTable columns rows).member? "head" =
      some (.ofMembers [("vars", .array (columns.map .string))]) := by
    simp [jsonTable, Json.member?, Json.ofMembers, Json.lookup_insertMember]
  have hresults : (jsonTable columns rows).member? "results" =
      some (.ofMembers [("bindings", .array (rows.map (jsonRow columns)))]) := by
    simp [jsonTable, Json.member?, Json.ofMembers, Json.lookup_insertMember]
  simp only [tableOf?, hhead, hresults, Json.member?_ofMembers_singleton, Json.items?, hvars, hrows,
    Option.bind_eq_bind, Option.bind_some, Option.pure_def]

end Tables

end RdfStore.Results
