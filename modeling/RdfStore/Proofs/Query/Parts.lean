import RdfStore.Query.Scope

/-!
# The parts of a query

Groups hold expressions and groups, and expressions hold expressions and, in `EXISTS`, groups. A
part of a query is a group or an expression at any depth: in the pattern, in the computed columns
or in the sort keys.
-/

set_option autoImplicit false

namespace RdfStore.Query

/-- A group or an expression. -/
inductive Part where
  | group (g : Group)
  | expr (e : Expr)

/-- The groups and expressions that an element is made of. -/
def Element.parts : Element → List Part
  | .triples _ | .data _ => []
  | .filter e | .bind e _ => [.expr e]
  | .optional g | .group g | .minus g => [.group g]
  | .union branches => branches.map .group

/-- The parts of an element are no larger than the element. -/
theorem Element.sizeOf_parts {element : Element} {q : Part} (hq : q ∈ element.parts) :
    sizeOf q ≤ sizeOf element := by
  cases element with
  | triples _ | data _ => exact absurd hq List.not_mem_nil
  | filter e | bind e _ | «optional» g | group g | minus g =>
    rw [List.mem_singleton.mp hq]
    simp
  | union branches =>
    obtain ⟨g, hg, rfl⟩ := List.mem_map.mp hq
    have hlt := List.sizeOf_lt_of_mem hg
    simp only [Part.group.sizeOf_spec, union.sizeOf_spec]
    omega

namespace Part

/-- The parts that a part is made of. -/
def inside : Part → List Part
  | .group g => g.elements.flatMap Element.parts
  | .expr (.var _) | .expr (.const _) => []
  | .expr (.binary _ left right) => [.expr left, .expr right]
  | .expr (.unary _ operand) => [.expr operand]
  | .expr (.call _ args) => args.map .expr
  | .expr (.member _ operand items) => .expr operand :: items.map .expr
  | .expr (.exists _ g) => [.group g]

/-- The parts inside a part, at every depth, and the part itself. -/
inductive Within (whole : Part) : Part → Prop where
  | self : Within whole whole
  | inside {p q : Part} (h : Within whole p) (hq : q ∈ p.inside) : Within whole q

variable {p q r : Part}

/-- What is within a part that is inside another one is within that. -/
theorem Within.of_inside (hq : q ∈ p.inside) (h : Within q r) : Within p r := by
  induction h with
  | self => exact .inside .self hq
  | inside _ hr ih => exact .inside ih hr

/-- What is inside a part is the part itself or inside one that it is made of. -/
theorem Within.cases_inside (h : Within p r) : r = p ∨ ∃ q ∈ p.inside, Within q r := by
  induction h with
  | self => exact Or.inl rfl
  | inside _ hr ih =>
    rcases ih with rfl | ⟨q, hq, hwithin⟩
    · exact Or.inr ⟨_, hr, .self⟩
    · exact Or.inr ⟨q, hq, .inside hwithin hr⟩

/-- A property that passes to what a part is made of passes to everything inside. -/
theorem Within.keeps {property : Part → Prop} (h : Within p r) (hp : property p)
    (hinside : ∀ a b, b ∈ a.inside → property a → property b) : property r := by
  induction h with
  | self => exact hp
  | inside _ hr ih => exact hinside _ _ hr ih

/-! ## Induction over parts -/

/-- What a part is made of is smaller. -/
theorem sizeOf_inside (hq : q ∈ p.inside) : sizeOf q < sizeOf p := by
  match p with
  | .group (.mk elements) =>
    obtain ⟨element, helement, hq⟩ := List.mem_flatMap.mp hq
    have hlt : sizeOf element < sizeOf elements := List.sizeOf_lt_of_mem helement
    have hle := Element.sizeOf_parts hq
    simp only [group.sizeOf_spec, Group.mk.sizeOf_spec]
    omega
  | .expr (.var _) | .expr (.const _) => exact absurd hq List.not_mem_nil
  | .expr (.binary _ left right) =>
    rcases List.mem_cons.mp hq with rfl | hq
    · simp only [expr.sizeOf_spec, Expr.binary.sizeOf_spec]
      omega
    · rw [List.mem_singleton.mp hq]
      simp only [expr.sizeOf_spec, Expr.binary.sizeOf_spec]
      omega
  | .expr (.unary _ operand) =>
    rw [List.mem_singleton.mp hq]
    simp only [expr.sizeOf_spec, Expr.unary.sizeOf_spec]
    omega
  | .expr (.call _ args) =>
    obtain ⟨e, he, rfl⟩ := List.mem_map.mp hq
    have hlt := List.sizeOf_lt_of_mem he
    simp only [expr.sizeOf_spec, Expr.call.sizeOf_spec]
    omega
  | .expr (.member _ operand items) =>
    rcases List.mem_cons.mp hq with rfl | hq
    · simp only [expr.sizeOf_spec, Expr.member.sizeOf_spec]
      omega
    · obtain ⟨e, he, rfl⟩ := List.mem_map.mp hq
      have hlt := List.sizeOf_lt_of_mem he
      simp only [expr.sizeOf_spec, Expr.member.sizeOf_spec]
      omega
  | .expr (.exists _ g) =>
    rw [List.mem_singleton.mp hq]
    simp only [group.sizeOf_spec, expr.sizeOf_spec, Expr.exists.sizeOf_spec]
    omega

/-- A property that a part has if what it is made of has it is one of all parts. -/
theorem induct {property : Part → Prop}
    (step : ∀ p : Part, (∀ q ∈ p.inside, property q) → property p) (p : Part) : property p :=
  step p fun q _ => induct step q
termination_by sizeOf p
decreasing_by exact sizeOf_inside ‹q ∈ p.inside›

end Part

/-- The expression of a column, if it is computed. -/
def SelectItem.value? : SelectItem → Option Expr
  | .var _ => none
  | .expr value _ => some value

/-- The name of a column, if it is computed. -/
def SelectItem.alias? : SelectItem → Option String
  | .var _ => none
  | .expr _ name => some name

/-- The expressions of the computed columns. -/
def Form.computed : Form → List Expr
  | .select _ (.items items) => items.filterMap SelectItem.value?
  | _ => []

/-- The pattern, the computed columns and the sort keys. -/
def roots (q : Query) : List Part :=
  .group q.pattern :: q.form.computed.map .expr ++
    q.modifiers.orderBy.map fun condition => .expr condition.key

/-- A group or an expression of a query, at any depth. -/
def HasPart (q : Query) (p : Part) : Prop := ∃ root ∈ q.roots, root.Within p

variable {q : Query}

/-- The pattern of a query is a part of it. -/
theorem hasPart_pattern : q.HasPart (.group q.pattern) :=
  ⟨_, List.mem_cons_self, .self⟩

/-- What is inside a part of a query is a part of the query. -/
theorem HasPart.inside {p r : Part} (h : q.HasPart p) (hr : r ∈ p.inside) : q.HasPart r := by
  obtain ⟨root, hroot, hwithin⟩ := h
  exact ⟨root, hroot, .inside hwithin hr⟩

/-- A property of the pattern, the columns and the keys that passes inside is one of all parts. -/
theorem HasPart.keeps {property : Part → Prop} {p : Part} (h : q.HasPart p)
    (hroots : ∀ root ∈ q.roots, property root)
    (hinside : ∀ a b, b ∈ a.inside → property a → property b) : property p := by
  obtain ⟨root, hroot, hwithin⟩ := h
  exact hwithin.keeps (hroots root hroot) hinside

end RdfStore.Query
