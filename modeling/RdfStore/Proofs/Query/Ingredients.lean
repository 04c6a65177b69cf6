import RdfStore.Proofs.Peg.Spelling
import RdfStore.Proofs.Query.WellFormed

/-!
# What queries are made of

The constants of a query that is read, in its expressions, patterns and data and in its template,
are well-formed terms. Its names have no characters but those of variables, the names of hidden
variables apart; so all columns of its table have plain names.
-/

set_option autoImplicit false

namespace RdfStore.Query

open RdfStore.Peg RdfStore.Syntax RdfStore.Text

/-! ## Good ingredients -/

/-- A name with no characters but those of variables: of names, and the sigils. -/
def IsPlainName (name : String) : Prop :=
  ∀ c ∈ name.toList, isNameChar c = true ∨ c = '?' ∨ c = '$'

/-- Control characters and blanks are no characters of variables. -/
theorem IsPlainName.lt_toNat {name : String} (h : IsPlainName name) {c : Char}
    (hc : c ∈ name.toList) : 0x20 < c.toNat := by
  rcases h c hc with hname | rfl | rfl
  · exact lt_toNat_of_isNameChar hname
  · decide
  · decide

/-- A place with a plain name or a well-formed term, if it has either. -/
def Place.IsProper : Place → Prop
  | .var name => isHidden name = true ∨ IsPlainName name
  | .term t => t.IsWellFormed
  | .blank _ => True

/-- Inline data with plain names and well-formed terms. -/
structure DataBlock.IsProper (block : DataBlock) : Prop where
  vars : ∀ name ∈ block.vars, IsPlainName name
  rows : ∀ row ∈ block.rows, ∀ t, some t ∈ row → t.IsWellFormed

/-- The constants of an element and the names that it binds, outside its groups and expressions. -/
def Element.IsProper : Element → Prop
  | .triples patterns => AllPlaces Place.IsProper patterns
  | .bind _ name => IsPlainName name
  | .data block => block.IsProper
  | .filter _ | .optional _ | .union _ | .group _ | .minus _ => True

/-- A constant is well-formed. -/
def Expr.IsProper : Expr → Prop
  | .const t => t.IsWellFormed
  | _ => True

/-- What is asked of the ingredients of a query that is read from a text of the grammar. -/
def ingredients : Criterion where
  node node := IsFormed grammar node ∧ IsSpelled grammar node
  expr := Expr.IsProper
  element _ := Element.IsProper
  data := DataBlock.IsProper
  template := AllPlaces Place.IsProper
  column _ item := IsPlainName item.name

/-! ## Names -/

/-- A character of a variable's name is one of a name in a document. -/
theorem isNameChar_of_isVariableChar {c : Char} (h : isVariableChar c = true) :
    isNameChar c = true := by
  simp only [isVariableChar, Bool.or_eq_true] at h
  rcases h with (h | h) | h <;> simp [isNameChar, h]

/-- After its sigil a variable has characters of names only. -/
theorem isPlainName_variableName {node : Node} (h : IsSpelled grammar node)
    (hrule : node.rule = .var) : IsPlainName (variableName node) := by
  intro c hc
  have hmem : c ∈ node.text := by
    rw [variableName, String.toList_ofList] at hc
    exact List.mem_of_mem_drop hc
  have hread := h.text (by rw [hrule]; rfl) c hmem
  rw [hrule] at hread
  cases hread with
  | first hread =>
    cases hread with
    | char hsigil =>
      exact Or.inr ((Bool.or_eq_true_iff.mp hsigil).imp eq_of_beq eq_of_beq)
  | second hread =>
    cases hread with
    | first hread =>
      cases hread with
      | char hstart => exact Or.inl (isNameChar_of_isLabelStart hstart)
    | second hread =>
      cases hread with
      | item hread =>
        cases hread with
        | char hname => exact Or.inl (isNameChar_of_isVariableChar hname)

/-- The names of such nodes are plain names. -/
theorem isPlainName_of_mem_namesOf {nodes : List Node} (h : ∀ node ∈ nodes, ingredients.node node) :
    ∀ name ∈ namesOf nodes, IsPlainName name := by
  intro name hname
  obtain ⟨node, hmem, rfl⟩ := List.mem_map.mp hname
  obtain ⟨hin, hrule⟩ := List.mem_filter.mp hmem
  exact isPlainName_variableName (h node hin).2 (eq_of_beq hrule)

/-- An assignment names its target last. -/
theorem rule_target_of_bind {start : Nat} {text : List Char} {value target : Node}
    {rest : List Node} (h : IsFormed grammar (.node .bind start text (value :: target :: rest))) :
    target.rule = .var := by
  cases h with
  | @node _ _ _ _ mode hvisible hleaves _ =>
    generalize hrules : (value :: target :: rest).map ParseTree.rule = rules at hleaves
    cases hleaves with
    | seq hkeyword hleaves =>
      cases hkeyword
      cases hleaves with
      | seq hopen hleaves =>
        cases hopen
        cases hleaves with
        | seq hvalue hleaves =>
          cases hleaves with
          | seq has hleaves =>
            cases has
            cases hleaves with
            | seq htarget hclose =>
              rw [hvalue.of_visible hvisible, htarget.of_visible hvisible] at hrules
              injection hrules with _ hrules
              injection hrules

/-- A column is a variable, or an expression and the name for it. -/
theorem rules_of_selectItem {node : Node} (h : IsFormed grammar node)
    (hrule : node.rule = .selectItem) :
    node.children.map ParseTree.rule = [.var] ∨
      node.children.map ParseTree.rule = [.expression, .var] := by
  cases h with
  | @node _ _ _ children mode hvisible hleaves _ =>
    cases hrule
    show children.map ParseTree.rule = [.var] ∨ children.map ParseTree.rule = [.expression, .var]
    generalize children.map ParseTree.rule = rules at hleaves ⊢
    cases hleaves with
    | left hvar => exact Or.inl (hvar.of_visible hvisible)
    | right hleaves =>
      right
      cases hleaves with
      | seq hopen hleaves =>
        cases hopen
        cases hleaves with
        | seq hvalue hleaves =>
          cases hleaves with
          | seq has hleaves =>
            cases has
            cases hleaves with
            | seq htarget hclose =>
              cases hclose
              rw [hvalue.of_visible hvisible, htarget.of_visible hvisible]
              rfl

/-! ## Terms -/

/-- The datatype of a written number is one of four. -/
theorem mem_xsd_of_numericDatatype? {t : Terminal} {datatype : Iri}
    (h : t.numericDatatype? = some datatype) :
    datatype ∈ [Vocabulary.xsdBoolean, Vocabulary.xsdInteger, Vocabulary.xsdDecimal,
      Vocabulary.xsdDouble] := by
  cases t <;> cases h <;> simp

/-- A constant of any kind is well-formed. -/
theorem readTerm_isWellFormed (scope : IriScope) (node : Node) :
    Yields (readTerm scope node) Term.IsWellFormed := by
  have hliteral : Yields (take (scope.literal Symbol.terminal? node)) Literal.IsWellFormed := by
    cases h : scope.literal Symbol.terminal? node with
    | error e => exact yields_throw _
    | ok l => exact yields_pure (IriScope.isWellFormed_of_literal h)
  unfold readTerm
  split
  · exact hliteral.map fun _ hl => hl
  · exact yields_pure (Literal.isWellFormed_xsd List.mem_cons_self _)
  · split
    · rename_i hdatatype
      exact yields_pure (Literal.isWellFormed_xsd (mem_xsd_of_numericDatatype? hdatatype) _)
    · exact (yields_iri scope node).map fun _ hi => hi
  · exact yields_refuse node _

/-- A value of inline data is a well-formed term. -/
theorem readDatum_isWellFormed (scope : IriScope) (node : Node) :
    Yields (readDatum scope node) fun entry => ∀ t, some t = entry → t.IsWellFormed := by
  unfold readDatum
  split
  · exact yields_pure fun t ht => nomatch ht
  · refine (readTerm_isWellFormed scope node).map fun t ht other hother => ?_
    cases hother
    exact ht

/-- The values of a row are well-formed terms. -/
theorem readRow_isWellFormed (scope : IriScope) (vars : List String) (row : Node) :
    Yields (readRow scope vars row) fun values => ∀ t, some t ∈ values → t.IsWellFormed := by
  unfold readRow
  refine (yields_mapM fun item _ => readDatum_isWellFormed scope item).bind fun values hvalues => ?_
  split
  · exact yields_pure fun t ht => hvalues (some t) ht t rfl
  · exact yields_refuse row _

/-- The data of a block is proper. -/
theorem readDataBlock_isProper (scope : IriScope) {block : Node} (h : ingredients.node block) :
    Yields (readDataBlock scope block) DataBlock.IsProper := by
  have hvars := isPlainName_of_mem_namesOf fun node hnode =>
    show ingredients.node node from ⟨h.1.children node hnode, h.2.children node hnode⟩
  unfold readDataBlock
  dsimp only
  split
  · have hcell : ∀ item ∈ nonVariables block.children,
        Yields (do return [← readDatum scope item]) fun row =>
          ∀ t, some t ∈ row → t.IsWellFormed := fun item _ =>
      (readDatum_isWellFormed scope item).bind fun entry hentry =>
        yields_pure fun t ht => hentry t (List.mem_singleton.mp ht)
    exact (yields_mapM hcell).bind fun rows hrows => yields_pure ⟨hvars, hrows⟩
  · exact (yields_mapM fun row _ => readRow_isWellFormed scope _ row).bind fun rows hrows =>
      yields_pure ⟨hvars, hrows⟩

/-! ## The ingredients of what is read -/

/-- Blank nodes of patterns stand for hidden variables. -/
theorem blankPlace_isProper (inTemplate : Bool) (label : String) :
    (blankPlace inTemplate label).IsProper := by
  cases inTemplate with
  | true => exact trivial
  | false =>
    refine Or.inl ?_
    simp [isHidden]

/-- The walk over places reads proper ones. -/
theorem readsPlaces_proper (scope : IriScope) (inTemplate : Bool) :
    ReadsPlaces scope inTemplate ingredients.node Place.IsProper where
  children _ h child hchild := ⟨h.1.children child hchild, h.2.children child hchild⟩
  var _ h hrule := Or.inr (isPlainName_variableName h.2 hrule)
  label label := blankPlace_isProper inTemplate label
  iri _ hi := hi
  term node _ := readTerm_isWellFormed scope node

/-- The walk over the nodes of a query reads what these ingredients say. -/
theorem ingredients_isRead : ingredients.IsRead where
  children _ h child hchild := ⟨h.1.children child hchild, h.2.children child hchild⟩
  var _ := trivial
  const scope node _ := readTerm_isWellFormed scope node
  iri _ hi := hi
  unary _ _ := trivial
  binary _ _ _ := trivial
  member _ _ _ := trivial
  exists_ _ _ := trivial
  call _ _ _ _ := trivial
  triples scope _ hnodes := (readBlocks_meets (readsPlaces_proper scope false) hnodes).mono
    fun _ h _ => h
  union _ _ _ _ _ _ _ _ := trivial
  group _ _ := trivial
  optional _ _ := trivial
  minus _ _ := trivial
  filter _ _ := trivial
  bind start text value target rest h _ _ _ :=
    isPlainName_variableName (h.2.children target (by simp [ParseTree.children]))
      (rule_target_of_bind h.1)
  block scope _ h := readDataBlock_isProper scope h
  noBlock := ⟨fun _ h => absurd h List.not_mem_nil, fun _ h => absurd h List.not_mem_nil⟩
  data _ _ h := h
  template scope inTemplate _ hnodes :=
    readBlocks_meets (readsPlaces_proper scope inTemplate) hnodes
  noTemplate := allPlaces_nil
  plain node target _ h hrule hchildren _ := by
    have hrules := rules_of_selectItem h.1 hrule
    rw [hchildren] at hrules
    refine isPlainName_variableName (h.2.children target (by simp [hchildren])) ?_
    simpa using hrules
  computed node value target _ h hrule hchildren _ _ := by
    have hrules := rules_of_selectItem h.1 hrule
    rw [hchildren] at hrules
    refine isPlainName_variableName (h.2.children target (by simp [hchildren])) ?_
    have hrules : value.rule = .expression ∧ target.rule = .var := by simpa using hrules
    exact hrules.2

/-- The ingredients of every query that is read are good. -/
theorem meets_ingredients {text : String} {q : Query} (hread : read text = .ok q) :
    Meets ingredients q :=
  (of_read (fun _ hformed hspelled => readParts_meets ingredients_isRead fun node hnode =>
    ⟨hformed node hnode, hspelled node hnode⟩) hread).1

end RdfStore.Query
