import Mathlib.Data.List.Forall2
import RdfStore.Proofs.Peg.Rename
import RdfStore.Syntax.Token

/-!
# The same tokens in two grammars

Two nodes are the same token if they stand for the same terminal and have the same text and the
same content. A scope makes the same of them, wherever they stand. Nodes with the same outline up
to the names of the rules are the same tokens.
-/

set_option autoImplicit false

namespace RdfStore.Syntax

open RdfStore.Peg

variable {R R' : Type} {terminal? : R → Option Terminal} {terminal?' : R' → Option Terminal}
  {tree : ParseTree R} {tree' : ParseTree R'} {scope : IriScope}

/-- Two nodes stand for the same terminal, with the same text and content. -/
structure SameToken (terminal? : R → Option Terminal) (terminal?' : R' → Option Terminal)
    (tree : ParseTree R) (tree' : ParseTree R') : Prop where
  rule : terminal?' tree'.rule = terminal? tree.rule
  text : tree'.text = tree.text
  content : firstText tree'.children = firstText tree.children

/-- What a token is blamed for, another is blamed for. -/
theorem ok_of_blame {α : Type} {result : Except ScopeError α} {a : α}
    (h : blame tree result = .ok a) : blame tree' result = .ok a := by
  cases result with
  | error e => cases h
  | ok _ => exact h

/-- The same tokens have the same IRI. -/
theorem SameToken.iri_eq (h : SameToken terminal? terminal?' tree tree') {i : Iri}
    (hi : scope.iri terminal? tree = .ok i) : scope.iri terminal?' tree' = .ok i := by
  unfold IriScope.iri at hi ⊢
  rw [h.rule, h.text, h.content]
  split at hi <;> exact ok_of_blame hi

/-- Literals of the same tokens are the same. -/
theorem literal_eq_of_sameTokens
    (h : List.Forall₂ (SameToken terminal? terminal?') tree.children tree'.children) {l : Literal}
    (hl : scope.literal terminal? tree = .ok l) : scope.literal terminal?' tree' = .ok l := by
  unfold IriScope.literal at hl ⊢
  generalize tree.children = children at h hl
  generalize tree'.children = children' at h
  cases h with
  | nil => exact hl
  | @cons string string' rest rest' hstring hrest =>
    dsimp only at hl ⊢
    rw [hstring.content]
    cases hvalue : blame string (IriScope.lift (decodeLiteral (firstText string.children))) with
    | error e =>
      rw [hvalue] at hl
      cases hl
    | ok value =>
      rw [hvalue] at hl
      rw [ok_of_blame hvalue]
      cases hrest with
      | nil => exact hl
      | @cons suffix suffix' _ _ hsuffix _ =>
        dsimp only [bind, Except.bind] at hl ⊢
        rw [hsuffix.rule, hsuffix.text]
        split at hl
        · exact ok_of_blame hl
        · cases hdatatype : scope.iri terminal? suffix with
          | error e =>
            rw [hdatatype] at hl
            cases hl
          | ok datatype =>
            rw [hdatatype] at hl
            rw [hsuffix.iri_eq hdatatype]
            exact ok_of_blame hl

/-! ## Renamed tokens -/

section Renames

variable {g : Grammar R} {g' : Grammar R'} {f : R → R'} {shared : R → Bool}

/-- Nodes with the same outline up to names have the same text, and their children have the same
outlines up to names. -/
theorem exists_of_outlines (hf : Renames g g' f shared)
    (hwords : ∀ r, shared r = true → (g.production r).manner ≠ .words) {o : Outline R}
    (ho : o.IsOver shared) (htree : g.outline tree = o) (htree' : g'.outline tree' = o.rename f) :
    ∃ children : List (Outline R), (∀ child ∈ children, child.IsOver shared) ∧
      g.outlines tree.children = children ∧
      g'.outlines tree'.children = Outline.renameAll f children ∧
      tree'.rule = f tree.rule ∧ tree'.text = tree.text := by
  cases ho with
  | @node r text children hr hchildren =>
    have hmanner : (g'.production (f r)).manner = (g.production r).manner := by
      rw [hf.production r hr]
      rfl
    obtain ⟨_, written, _, rfl, htrees, htext⟩ := Grammar.eq_of_outline htree
    obtain ⟨_, written', _, rfl, htrees', htext'⟩ := Grammar.eq_of_outline htree'
    rw [Grammar.outlineText, if_neg (hwords r hr)] at htext
    rw [Grammar.outlineText, hmanner, if_neg (hwords r hr)] at htext'
    exact ⟨children, hchildren, htrees, htrees', rfl, htext'.trans htext.symm⟩

variable (hf : Renames g g' f shared)
  (hwords : ∀ r, shared r = true → (g.production r).manner ≠ .words)
  (hterminal : ∀ r, terminal?' (f r) = terminal? r)

include hf hwords hterminal

/-- Nodes with the same outline up to names are the same token. -/
theorem sameToken_of_outline {o : Outline R} (ho : o.IsOver shared) (htree : g.outline tree = o)
    (htree' : g'.outline tree' = o.rename f) : SameToken terminal? terminal?' tree tree' := by
  obtain ⟨children, hchildren, htrees, htrees', hrule, htext⟩ :=
    exists_of_outlines hf hwords ho htree htree'
  refine ⟨by rw [hrule, hterminal], htext, ?_⟩
  cases children with
  | nil => rw [Grammar.eq_nil_of_outlines htrees, Grammar.eq_nil_of_outlines htrees', firstText,
      firstText]
  | cons child _ =>
    obtain ⟨_, _, hfirst, hchild, -⟩ := Grammar.eq_cons_of_outlines htrees
    obtain ⟨_, _, hfirst', hchild', -⟩ := Grammar.eq_cons_of_outlines htrees'
    obtain ⟨_, -, -, -, -, hsame⟩ :=
      exists_of_outlines hf hwords (hchildren child List.mem_cons_self) hchild hchild'
    rw [hfirst, hfirst', firstText, firstText, hsame]

/-- Nodes in a row with the same outlines up to names are the same tokens. -/
theorem sameTokens_of_outlines {os : List (Outline R)} (hos : ∀ o ∈ os, o.IsOver shared)
    {trees : List (ParseTree R)} {trees' : List (ParseTree R')} (htrees : g.outlines trees = os)
    (htrees' : g'.outlines trees' = Outline.renameAll f os) :
    List.Forall₂ (SameToken terminal? terminal?') trees trees' := by
  induction os generalizing trees trees' with
  | nil =>
    rw [Grammar.eq_nil_of_outlines htrees, Grammar.eq_nil_of_outlines htrees']
    exact .nil
  | cons o os ih =>
    obtain ⟨tree, rest, rfl, htree, hrest⟩ := Grammar.eq_cons_of_outlines htrees
    obtain ⟨tree', rest', rfl, htree', hrest'⟩ := Grammar.eq_cons_of_outlines htrees'
    exact .cons (sameToken_of_outline hf hwords hterminal (hos o List.mem_cons_self) htree htree')
      (ih (fun p hp => hos p (List.mem_cons_of_mem o hp)) hrest hrest')

end Renames

end RdfStore.Syntax
