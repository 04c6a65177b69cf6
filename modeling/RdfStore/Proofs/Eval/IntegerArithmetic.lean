import RdfStore.Proofs.Eval.Membership
import RdfStore.Proofs.Eval.QueryMeaning
import RdfStore.Proofs.Number.IntegerText
import RdfStore.Proofs.Query.ExpressionText

/-!
# Integer arithmetic

Arithmetic on integers is exact or has no value. Each operation prints its result as a literal that
the next one reads back, and gives up where the result leaves the range, so an expression has a
value where every exact value on the way is in range. A number that stands in a query is such an
expression: its sign is an operator.
-/

set_option autoImplicit false

namespace RdfStore

open Query

/-! ## Trees of operations -/

namespace Query

/-- The operations on one integer. -/
inductive IntegerUnary where
  | plus | minus | abs
deriving DecidableEq

/-- The operations on two integers that have an integer result. -/
inductive IntegerBinary where
  | add | sub | mul
deriving DecidableEq

/-- The expression of an operation. -/
def IntegerUnary.toExpr : IntegerUnary → Expr → Expr
  | .plus, e => .unary .plus e
  | .minus, e => .unary .minus e
  | .abs, e => .call .abs [e]

/-- The exact result. -/
def IntegerUnary.apply : IntegerUnary → Int → Int
  | .plus, n => n
  | .minus, n => -n
  | .abs, n => n.natAbs

/-- The operator. -/
def IntegerBinary.toArithmetic : IntegerBinary → Arithmetic
  | .add => .add
  | .sub => .sub
  | .mul => .mul

/-- The exact result. -/
def IntegerBinary.apply : IntegerBinary → Int → Int → Int
  | .add, m, n => m + n
  | .sub, m, n => m - n
  | .mul, m, n => m * n

/-- An expression of operations on integers, with literals of the integer datatypes at its
leaves. -/
inductive IntegerTree where
  | leaf (l : Literal) (h : Numeric.Kind.ofDatatype? l.datatype = some .integer)
  | unary (op : IntegerUnary) (operand : IntegerTree)
  | binary (op : IntegerBinary) (left right : IntegerTree)

namespace IntegerTree

/-- The expression. -/
def toExpr : IntegerTree → Expr
  | leaf l _ => .const (.literal l)
  | unary op operand => op.toExpr operand.toExpr
  | binary op left right => .binary (.calculate op.toArithmetic) left.toExpr right.toExpr

/-- The exact value, if every leaf is the text of a number. -/
def value? : IntegerTree → Option Int
  | leaf l _ => Integer.read? (Text.trim l.value.toList)
  | unary op operand => operand.value?.map op.apply
  | binary op left right => left.value?.bind fun m => right.value?.map (op.apply m)

/-- The tree and the trees below its root. -/
def subtrees : IntegerTree → List IntegerTree
  | leaf l h => [leaf l h]
  | unary op operand => unary op operand :: operand.subtrees
  | binary op left right => binary op left right :: (left.subtrees ++ right.subtrees)

/-- Every subtree has a value, which is in range. -/
def Fits (t : IntegerTree) : Prop :=
  ∀ s ∈ t.subtrees, ∃ n ∈ s.value?, Integer.InRange n

instance (t : IntegerTree) : Decidable t.Fits :=
  inferInstanceAs (Decidable (∀ s ∈ t.subtrees, ∃ n ∈ s.value?, Integer.InRange n))

/-- There is an operation at the root. -/
def IsCompound : IntegerTree → Prop
  | leaf _ _ => False
  | _ => True

instance : DecidablePred IsCompound
  | leaf _ _ => inferInstanceAs (Decidable False)
  | unary _ _ => inferInstanceAs (Decidable True)
  | binary _ _ _ => inferInstanceAs (Decidable True)

/-- The value of evaluation from the leaves, which stops where a result is out of range. -/
def evaluate? : IntegerTree → Option Int
  | leaf l _ => Integer.read? (Text.trim l.value.toList)
  | unary op operand => operand.evaluate?.bind fun n => Integer.checked (op.apply n)
  | binary op left right =>
    left.evaluate?.bind fun m => right.evaluate?.bind fun n => Integer.checked (op.apply m n)

end IntegerTree

end Query

namespace Query.IntegerTree

/-- An operation on one number fits if the operand fits and its value is in range. -/
theorem fits_unary {op : IntegerUnary} {a : IntegerTree} :
    (unary op a).Fits ↔ a.Fits ∧ ∃ n ∈ (unary op a).value?, Integer.InRange n := by
  unfold Fits
  rw [subtrees, List.forall_mem_cons, and_comm]

/-- An operation on two numbers fits if both fit and its value is in range. -/
theorem fits_binary {op : IntegerBinary} {a b : IntegerTree} :
    (binary op a b).Fits ↔
      (a.Fits ∧ b.Fits) ∧ ∃ n ∈ (binary op a b).value?, Integer.InRange n := by
  unfold Fits
  rw [subtrees, List.forall_mem_cons, List.forall_mem_append, and_comm]

/-- Evaluation from the leaves gives the exact value where every subtree fits, and nothing
elsewhere. -/
theorem evaluate?_eq_some_iff {t : IntegerTree} {n : Int} :
    t.evaluate? = some n ↔ t.Fits ∧ t.value? = some n := by
  induction t generalizing n with
  | leaf l h =>
    have hfits : (leaf l h).Fits ↔ ∃ n ∈ (leaf l h).value?, Integer.InRange n := by
      unfold Fits
      rw [subtrees, List.forall_mem_singleton]
    rw [hfits, evaluate?, value?]
    constructor
    · intro hread
      exact ⟨⟨n, hread, Integer.inRange_of_read? hread⟩, hread⟩
    · exact And.right
  | unary op a ih =>
    rw [fits_unary, evaluate?, value?, Option.bind_eq_some_iff, Option.map_eq_some_iff]
    constructor
    · rintro ⟨m, ha, hchecked⟩
      obtain ⟨hrange, rfl⟩ := Integer.checked_eq_some_iff.mp hchecked
      obtain ⟨hfits, hvalue⟩ := ih.mp ha
      exact ⟨⟨hfits, _, Option.mem_map_of_mem _ hvalue, hrange⟩, m, hvalue, rfl⟩
    · rintro ⟨⟨hfits, k, hk, hrange⟩, m, hvalue, rfl⟩
      rw [hvalue, Option.map_some, Option.mem_some_iff] at hk
      exact ⟨m, ih.mpr ⟨hfits, hvalue⟩, Integer.checked_of_inRange (hk ▸ hrange)⟩
  | binary op a b iha ihb =>
    rw [fits_binary, evaluate?, value?, Option.bind_eq_some_iff, Option.bind_eq_some_iff]
    constructor
    · rintro ⟨i, ha, hrest⟩
      obtain ⟨j, hb, hchecked⟩ := Option.bind_eq_some_iff.mp hrest
      obtain ⟨hrange, rfl⟩ := Integer.checked_eq_some_iff.mp hchecked
      obtain ⟨hfitsa, hvaluea⟩ := iha.mp ha
      obtain ⟨hfitsb, hvalueb⟩ := ihb.mp hb
      have hvalue : (b.value?.map (op.apply i)) = some (op.apply i j) := by
        rw [hvalueb, Option.map_some]
      refine ⟨⟨⟨hfitsa, hfitsb⟩, op.apply i j, ?_, hrange⟩, i, hvaluea, hvalue⟩
      rw [hvaluea]
      exact hvalue
    · rintro ⟨⟨⟨hfitsa, hfitsb⟩, k, hk, hrange⟩, i, hvaluea, hmap⟩
      obtain ⟨j, hvalueb, rfl⟩ := Option.map_eq_some_iff.mp hmap
      rw [hvaluea, Option.bind_some, hmap, Option.mem_some_iff] at hk
      refine ⟨i, iha.mpr ⟨hfitsa, hvaluea⟩, ?_⟩
      rw [ihb.mpr ⟨hfitsb, hvalueb⟩, Option.bind_some]
      exact Integer.checked_of_inRange (hk ▸ hrange)

/-- A value that is computed is in range. -/
theorem inRange_of_evaluate? {t : IntegerTree} {n : Int} (h : t.evaluate? = some n) :
    Integer.InRange n := by
  cases t with
  | leaf l hl => exact Integer.inRange_of_read? h
  | unary op a =>
    obtain ⟨m, -, hchecked⟩ := Option.bind_eq_some_iff.mp h
    exact Integer.inRange_of_checked hchecked
  | binary op a b =>
    obtain ⟨i, -, hrest⟩ := Option.bind_eq_some_iff.mp h
    obtain ⟨j, -, hchecked⟩ := Option.bind_eq_some_iff.mp hrest
    exact Integer.inRange_of_checked hchecked

end Query.IntegerTree

namespace Eval

open RdfStore.Eval.Valuation

variable {env : Env}

/-! ## Values of trees -/

/-- The number that an expression denotes at a row. -/
def numberAt? (env : Env) (e : Expr) (row : Solution) : Option Numeric :=
  ((planValue env e).down row).bind Numeric.ofTerm?

/-- The result of an operation on a number. -/
def onNumber? : IntegerUnary → Numeric → Option Numeric
  | .plus, x => some x
  | .minus, x => x.negate?
  | .abs, x => x.abs?

/-- A plus sign gives the number itself. -/
theorem unary_plus (operand : Valuation) (row : Solution) :
    unary .plus operand row =
      (((operand row).bind Numeric.ofTerm?).bind (onNumber? .plus)).map Numeric.toTerm := by
  unfold unary
  cases operand row with
  | none => rfl
  | some t => cases ht : Numeric.ofTerm? t <;> simp [ht, onNumber?]

/-- A minus sign gives the opposite of a number. -/
theorem unary_minus (operand : Valuation) (row : Solution) :
    unary .minus operand row =
      (((operand row).bind Numeric.ofTerm?).bind (onNumber? .minus)).map Numeric.toTerm := by
  unfold unary
  cases operand row with
  | none => rfl
  | some t => cases ht : Numeric.ofTerm? t <;> simp [ht, onNumber?, Option.map_eq_bind]

/-- The function `ABS` gives the amount of a number. -/
theorem call_abs (operand : Valuation) (row : Solution) :
    call .abs [operand] row =
      (((operand row).bind Numeric.ofTerm?).bind (onNumber? .abs)).map Numeric.toTerm := by
  cases hrow : operand row with
  | none => simp [call, hrow]
  | some t =>
    cases ht : Numeric.ofTerm? t <;>
      simp [call, hrow, Builtin.value?, ht, onNumber?, Option.map_eq_bind]

/-- An operation on one number is planned as the operation on the value of its operand. -/
theorem planValue_integerUnary (op : IntegerUnary) (e : Expr) (row : Solution) :
    (planValue env (op.toExpr e)).down row =
      ((numberAt? env e row).bind (onNumber? op)).map Numeric.toTerm := by
  cases op with
  | plus =>
    rw [IntegerUnary.toExpr, planValue]
    exact unary_plus _ row
  | minus =>
    rw [IntegerUnary.toExpr, planValue]
    exact unary_minus _ row
  | abs =>
    rw [IntegerUnary.toExpr, planValue, down_planValues]
    exact call_abs _ row

/-- An operation on two numbers is planned as the operation on the values of both operands. -/
theorem planValue_calculate (op : Arithmetic) (left right : Expr) (row : Solution) :
    (planValue env (.binary (.calculate op) left right)).down row =
      ((numberAt? env left row).bind fun x =>
        (numberAt? env right row).bind (Numeric.calculate? op x)).map Numeric.toTerm := by
  rw [planValue]
  show binary (.calculate op) (planValue env left).down (planValue env right).down row = _
  unfold binary numberAt?
  cases ((planValue env left).down row).bind Numeric.ofTerm? with
  | none => rfl
  | some x =>
    cases ((planValue env right).down row).bind Numeric.ofTerm? with
    | none => rfl
    | some y => exact Option.map_eq_bind.symm

/-- An operation on an integer is exact, or has no value where the result is out of range. -/
theorem onNumber?_integer (op : IntegerUnary) {n : Int} (h : Integer.InRange n) :
    onNumber? op (.integer n) = (Integer.checked (op.apply n)).map .integer := by
  cases op with
  | plus => rw [IntegerUnary.apply, Integer.checked_of_inRange h]; rfl
  | minus | abs => rfl

/-- An operation on two integers is exact, or has no value where the result is out of range. -/
theorem calculate?_integer (op : IntegerBinary) (m n : Int) :
    Numeric.calculate? op.toArithmetic (.integer m) (.integer n) =
      (Integer.checked (op.apply m n)).map .integer := by
  cases op <;> rfl

/-- An expression with an integer for its value is that number. -/
theorem numberAt?_eq {e : Expr} {row : Solution} {v : Option Int}
    (h : (planValue env e).down row = v.map fun n => .literal (.ofInt n))
    (hrange : ∀ n, v = some n → Integer.InRange n) : numberAt? env e row = v.map .integer := by
  unfold numberAt?
  rw [h]
  cases v with
  | none => rfl
  | some n =>
    rw [Option.map_some, Option.bind_some, Numeric.ofTerm?_ofInt,
      Integer.checked_of_inRange (hrange n rfl)]

/-- The value of a tree is printed by its operation at the root, from the numbers of its
operands. -/
theorem planValue_toExpr (t : IntegerTree) (row : Solution) :
    (t.IsCompound →
      (planValue env t.toExpr).down row = t.evaluate?.map fun n => .literal (.ofInt n)) ∧
    numberAt? env t.toExpr row = t.evaluate?.map .integer := by
  -- a leaf keeps its own text, so only its number goes into the induction
  have hcompound : ∀ {t : IntegerTree},
      (planValue env t.toExpr).down row = (t.evaluate?.map fun n => .literal (.ofInt n)) →
      (t.IsCompound →
        (planValue env t.toExpr).down row = t.evaluate?.map fun n => .literal (.ofInt n)) ∧
      numberAt? env t.toExpr row = t.evaluate?.map .integer := fun h =>
    ⟨fun _ => h, numberAt?_eq h fun _ => IntegerTree.inRange_of_evaluate?⟩
  induction t with
  | leaf l h =>
    refine ⟨False.elim, ?_⟩
    unfold numberAt?
    rw [IntegerTree.toExpr, planValue]
    exact Numeric.ofTerm?_of_integer h
  | unary op a ih =>
    apply hcompound
    rw [IntegerTree.toExpr, planValue_integerUnary, ih.2, IntegerTree.evaluate?]
    cases ha : a.evaluate? with
    | none => rfl
    | some n =>
      rw [Option.map_some, Option.bind_some, Option.bind_some,
        onNumber?_integer op (IntegerTree.inRange_of_evaluate? ha), Option.map_map]
      rfl
  | binary op a b iha ihb =>
    apply hcompound
    rw [IntegerTree.toExpr, planValue_calculate, iha.2, ihb.2, IntegerTree.evaluate?]
    cases a.evaluate? with
    | none => rfl
    | some m =>
      cases b.evaluate? with
      | none => rfl
      | some n =>
        rw [Option.map_some, Option.map_some, Option.bind_some, Option.bind_some,
          Option.bind_some, Option.bind_some, calculate?_integer, Option.map_map]
        rfl

/-- On every store and at every row, a tree of one operation or more has as its value the literal
of the exact result, if every leaf is the text of a number in range and the exact value of every
subtree is in range; otherwise it has no value. -/
theorem integerTree_value (env : Env) (row : Solution) (t : IntegerTree) (h : t.IsCompound) :
    (t.Fits → ∃ n, t.value? = some n ∧
      (planValue env t.toExpr).down row = some (.literal (.ofInt n))) ∧
    (¬t.Fits → (planValue env t.toExpr).down row = none) := by
  rw [(planValue_toExpr t row).1 h]
  constructor
  · intro hfits
    have hroot : t ∈ t.subtrees := by cases t <;> simp [IntegerTree.subtrees]
    obtain ⟨n, hn, -⟩ := hfits t hroot
    refine ⟨n, hn, ?_⟩
    rw [IntegerTree.evaluate?_eq_some_iff.mpr ⟨hfits, hn⟩, Option.map_some]
  · intro hfits
    rw [Option.map_eq_none_iff, Option.eq_none_iff_forall_ne_some]
    intro n hn
    exact hfits (IntegerTree.evaluate?_eq_some_iff.mp hn).1

/-- The leaf of a text with an integer datatype. -/
def leafOf (text : String) : IntegerTree :=
  .leaf (.typed text Vocabulary.xsdInteger) Numeric.Kind.ofDatatype?_xsdInteger

/-- The smallest integer, as one less than the negated largest one. -/
def lowest : IntegerTree :=
  .binary .sub (.unary .minus (leafOf " 9223372036854775807 ")) (leafOf "+01")

/-- The largest integer, by way of one that is out of range. -/
def detour : IntegerTree := .binary .sub (.unary .abs lowest) (leafOf "1")

/-- The smallest integer is reached, but nothing is, not even in range, from its absolute value. -/
theorem integerTree_value_lowest :
    let env : Env := ⟨Store.refilled, []⟩
    lowest.IsCompound ∧ lowest.Fits ∧
      (∃ n, lowest.value? = some n ∧
        (planValue env lowest.toExpr).down [] = some (.literal (.ofInt n))) ∧
      detour.IsCompound ∧ detour.value? = some 9223372036854775807 ∧ ¬detour.Fits ∧
      (planValue env detour.toExpr).down [] = none := by
  intro env
  have hlowest : lowest.Fits := by decide
  have hdetour : ¬detour.Fits := by decide
  refine ⟨trivial, hlowest, ?_, trivial, by decide, hdetour, ?_⟩
  · exact (integerTree_value env [] lowest trivial).1 hlowest
  · exact (integerTree_value env [] detour trivial).2 hdetour

/-! ## Numbers in queries -/

section Assigned

variable {e : Expr} {name : String}

/-- A query for one assigned name has one slot. -/
theorem slots_selecting (hvars : addExpr [] e = []) :
    slots (selecting name [.bind e name]) = [name] := by
  simp [slots, selecting, addGroup, addElements, addElement, hvars, insertName, insertNames,
    addForm, addItem, Modifiers.none]

/-- A query without labels in its expression has no label in a wrong place. -/
theorem misplaced_selecting (hlabels : e.labels = []) :
    misplaced (selecting name [.bind e name]) = [] := by
  simp [misplaced, selecting, Group.labels, elementLabels, Element.labels, hlabels,
    SelectItem.labels, Modifiers.none]

/-- A group that assigns a name extends its seed by the value. -/
theorem groupSolutions_bind (env : Env) (seed : Solution) :
    groupSolutions env (.mk [.bind e name]) seed =
      [assignName env.names name (valueOf env e) seed] := by
  simp [groupSolutions, elementSolutions, conditionsOf, joinSolutions]

/-- A query for the value of an expression without variables answers one row with that value. -/
theorem execute_selecting (s : Store) (hvars : addExpr [] e = []) (hlabels : e.labels = []) :
    execute s (selecting name [.bind e name]) =
      .ok (.solutions [name] [[(planValue ⟨s, [name]⟩ e).down [none]]]) := by
  have hslot : Slots.slot? [name] name = some 0 := by simp [Slots.slot?]
  have hvalue : (planValue ⟨s, [name]⟩ e).down = valueOf ⟨s, [name]⟩ e := by
    refine planValue_down (fun v hv => ?_) hlabels
    rw [hvars] at hv
    exact absurd hv List.not_mem_nil
  rw [execute_eq s (misplaced_selecting hlabels), envOf, slots_selecting hvars, hvalue]
  simp [answerOf, selecting, columns, SelectItem.name, slotsIn, hslot, Projection.itemsOf,
    itemSolutions, querySolutions, groupSolutions_bind, assignName, assign, Solution.unbound,
    tableSolutions, sortedSolutions, slicedList, Modifiers.none]
  cases valueOf ⟨s, [name]⟩ e [none] <;> rfl

end Assigned

/-- The digits of a natural number are digits. -/
theorem isDigits_toDigits (m : Nat) : IsDigits (Nat.toDigits 10 m) := by
  have hne : Nat.toDigits 10 m ≠ [] := Nat.toDigits_ne_nil
  obtain ⟨c, tail, hdigits⟩ := List.exists_cons_of_ne_nil hne
  refine ⟨c, tail, hdigits, fun d hd => ?_⟩
  rw [← hdigits] at hd
  exact Integer.isAsciiDigit_of_isDigit (Integer.isDigit_of_mem_digits hd)

/-- What a number in a query is read as. -/
def writtenInteger : Int → Expr
  | .ofNat m => .const (.literal (.ofInt m))
  | .negSucc m => .unary .minus (.const (.literal (.ofInt (m + 1 : Nat))))

/-- A number in a query is read as itself, or as the operator on the number without its sign. -/
theorem read_integer (n : Int) :
    Query.read (valueQuery (toString n)) =
      .ok (selecting "r" [.bind (writtenInteger n) "r"]) := by
  cases n with
  | ofNat m =>
    have htext : (toString (Int.ofNat m)).toList = signedText false (Nat.toDigits 10 m) :=
      Integer.text_ofNat m
    rw [read_valueQuery_number (isDigits_toDigits m) htext, writtenInteger, Literal.ofInt_natCast]
    rfl
  | negSucc m =>
    have htext : (toString (Int.negSucc m)).toList = signedText true (Nat.toDigits 10 (m + 1)) :=
      Integer.text_negSucc m
    rw [read_valueQuery_number (isDigits_toDigits (m + 1)) htext, writtenInteger,
      Literal.ofInt_natCast]
    rfl

/-- The operator has a value only where the number without its sign is in range. -/
theorem value_negated (env : Env) (row : Solution) (m : Nat) :
    (planValue env (.unary .minus (.const (.literal (.ofInt (m + 1 : Nat)))))).down row =
      (Integer.checked (m + 1 : Nat)).map fun _ => .literal (.ofInt (.negSucc m)) := by
  let t : IntegerTree := .unary .minus
    (.leaf (.ofInt (m + 1 : Nat)) Numeric.Kind.ofDatatype?_xsdInteger)
  have hvalue : t.evaluate? =
      (Integer.checked (m + 1 : Nat)).bind fun n => Integer.checked (-n) := by
    rw [← Numeric.read?_ofInt]
    rfl
  refine ((planValue_toExpr t row).1 trivial).trans ?_
  rw [hvalue]
  cases hchecked : Integer.checked ((m + 1 : Nat) : Int) with
  | none => rfl
  | some k =>
    obtain ⟨hrange, rfl⟩ := Integer.checked_eq_some_iff.mp hchecked
    have hneg : Integer.InRange (-((m + 1 : Nat) : Int)) := by
      unfold Integer.InRange at hrange ⊢
      omega
    rw [Option.bind_some, Integer.checked_of_inRange hneg]
    rfl

/-- The value of a number that stands in a query. -/
theorem value_writtenInteger (env : Env) (row : Solution) {n : Int} (h : Integer.InRange n) :
    (planValue env (writtenInteger n)).down row =
      if n = -9223372036854775808 then none else some (.literal (.ofInt n)) := by
  unfold Integer.InRange at h
  cases n with
  | ofNat m =>
    have hne : Int.ofNat m ≠ -9223372036854775808 := by
      rw [Int.ofNat_eq_natCast]
      omega
    rw [if_neg hne, writtenInteger, planValue]
    rfl
  | negSucc m =>
    rw [writtenInteger, value_negated]
    by_cases hleast : Int.negSucc m = -9223372036854775808
    · -- the range has no number to negate here
      have hrange : ¬Integer.InRange ((m + 1 : Nat) : Int) := by
        unfold Integer.InRange
        omega
      rw [if_pos hleast, Integer.checked, if_neg hrange, Option.map_none]
    · have hrange : Integer.InRange ((m + 1 : Nat) : Int) := by
        unfold Integer.InRange
        omega
      rw [if_neg hleast, Integer.checked_of_inRange hrange, Option.map_some]

/-- A query for a written integer is answered with it, apart from the smallest one. -/
theorem execute_integer (s : Store) {n : Int} (h : Integer.InRange n) :
    execute s (selecting "r" [.bind (writtenInteger n) "r"]) =
      .ok (.solutions ["r"]
        [[if n = -9223372036854775808 then none else some (.literal (.ofInt n))]]) := by
  have hvars : addExpr [] (writtenInteger n) = [] := by cases n <;> rfl
  have hlabels : (writtenInteger n).labels = [] := by cases n <;> rfl
  rw [execute_selecting s hvars hlabels, value_writtenInteger _ _ h]

/-- On every store, a query for a number in range, written in decimal, is read and answers one row.
The row binds the column to the literal of the number, except for the smallest number: there the
digits without the sign are out of range, and the column stays unbound. -/
theorem valueQuery_integer (s : Store) (n : Int) (h : Integer.InRange n) :
    ∃ q, Query.read (valueQuery (toString n)) = .ok q ∧
      execute s q = .ok (.solutions ["r"]
        [[if n = -9223372036854775808 then none else some (.literal (.ofInt n))]]) :=
  ⟨_, read_integer n, execute_integer s h⟩

/-- The number after the smallest one. -/
theorem valueQuery_integer_least :
    Integer.InRange (-9223372036854775807) ∧
    ∃ q, Query.read (valueQuery (toString (-9223372036854775807 : Int))) = .ok q ∧
      execute Store.refilled q = .ok (.solutions ["r"]
        [[some (.literal (.ofInt (-9223372036854775807)))]]) := by
  have hrange : Integer.InRange (-9223372036854775807) := by decide
  obtain ⟨q, hread, hanswer⟩ := valueQuery_integer Store.refilled (-9223372036854775807) hrange
  exact ⟨hrange, q, hread, hanswer⟩

/-- Not every number in range comes back: the smallest one is not bound. -/
theorem exists_valueQuery_unbound :
    ¬∀ (s : Store) (n : Int), Integer.InRange n →
      ∃ q, Query.read (valueQuery (toString n)) = .ok q ∧
        execute s q = .ok (.solutions ["r"] [[some (.literal (.ofInt n))]]) := by
  intro hall
  have hrange : Integer.InRange (-9223372036854775808) := by decide
  obtain ⟨q, hread, hanswer⟩ := hall Store.refilled (-9223372036854775808) hrange
  obtain rfl := Except.ok.inj ((read_integer _).symm.trans hread)
  rw [execute_integer _ hrange, if_pos rfl] at hanswer
  simp at hanswer

end Eval

end RdfStore
