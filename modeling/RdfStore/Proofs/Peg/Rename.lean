import RdfStore.Proofs.Peg.Reads
import RdfStore.Proofs.Peg.Runs
import RdfStore.Proofs.Peg.Shape

/-!
# Grammars with the same rules under other names

If a grammar has the rules of another one under new names, with the same blanks, every run of the
one is a run of the other, and its nodes have the new names. The rules in question have to call
each other only.
-/

set_option autoImplicit false

/-!
## Reading up to the next word

Where blanks stand between words, a part that may be missing is looked for after blanks, so the
blanks behind an expression may or may not be read with it. `Leads` says where the text goes on
after an expression and the blanks behind it, which is all that the next expression depends on;
`Chain` says the same of an expression that is repeated.
-/

namespace RdfStore.Peg

variable {R : Type}

/-- At the start of a text an expression leaves nodes with the given outlines, and after it and
blanks the text goes on as given. -/
def Leads (g : Grammar R) (e : Expr R) (cs : List Char) (nodes : List (Outline R))
    (next : List Char) : Prop :=
  ∃ rest, Reads g .words e cs nodes rest ∧ g.skip .words rest = next

/-- The same for an expression that is repeated, with blanks before it. -/
def Chain (g : Grammar R) (item : Expr R) (cs : List Char) (nodes : List (Outline R))
    (next : List Char) : Prop :=
  ∀ r, g.skip .words r = cs → ∃ rest, Repeats g .words item r nodes rest ∧
    g.skip .words rest = next

variable {g : Grammar R} {first second item : Expr R} {cs mid next : List Char}
  {nodes more : List (Outline R)}

/-- What is read up to a rest leads to the word after the blanks of the rest. -/
theorem Reads.leads {rest : List Char} (h : Reads g .words item cs nodes rest)
    (hnext : g.skip .words rest = next) : Leads g item cs nodes next :=
  ⟨rest, h, hnext⟩

/-- One expression and then the other. -/
theorem Leads.seq [g.HasBlanks] (h : Leads g first cs nodes mid)
    (h' : Leads g second mid more next) : Leads g (.seq first second) cs (nodes ++ more) next := by
  obtain ⟨r, hr, rfl⟩ := h
  obtain ⟨rest, hrest, hnext⟩ := h'
  exact ⟨rest, hr.seq hrest, hnext⟩

/-- One expression, and then the other is refused. -/
theorem Leads.seq_refuses [g.HasBlanks] (h : Leads g first cs nodes mid)
    (h' : Refuses g .words second mid) : Refuses g .words (.seq first second) cs := by
  obtain ⟨r, hr, rfl⟩ := h
  exact hr.seq_refuses h'

/-- A choice of the first expression. -/
theorem Leads.choice_left (h : Leads g first cs nodes next) :
    Leads g (.choice first second) cs nodes next := by
  obtain ⟨rest, hrest, hnext⟩ := h
  exact ⟨rest, hrest.choice_left, hnext⟩

/-- A choice of the second expression where the first is refused. -/
theorem Leads.choice_right (h : Refuses g .words first cs)
    (h' : Leads g second cs nodes next) : Leads g (.choice first second) cs nodes next := by
  obtain ⟨rest, hrest, hnext⟩ := h'
  exact ⟨rest, Reads.choice_right h hrest, hnext⟩

/-- A part that is there although it may be missing. -/
theorem Leads.opt (h : Leads g item cs nodes next) : Leads g item.opt cs nodes next :=
  h.choice_left

/-- A part that is missing where it is refused. -/
theorem Refuses.leads_opt (h : Refuses g .words item cs) (hcs : g.skip .words cs = cs) :
    Leads g item.opt cs [] cs :=
  h.opt.leads hcs

/-- The rule of words around an expression. -/
theorem Leads.rule_words {r : R} (hwords : (g.production r).manner = .words)
    (h : Leads g (g.production r).body cs nodes next) :
    Leads g (.rule r) cs [.node r [] nodes] next := by
  obtain ⟨rest, hrest, hnext⟩ := h
  refine ⟨rest, Reads.rule_words hwords ?_ hrest, hnext⟩
  rw [hwords]
  rfl

/-- Repetition ends where the expression is refused. -/
theorem Refuses.chain [g.HasBlanks] (h : Refuses g .words item cs) : Chain g item cs [] cs := by
  rintro r rfl
  exact ⟨r, Refuses.stop h, rfl⟩

/-- Repetition goes on after the expression. -/
theorem Leads.chain [g.HasBlanks] (h : Leads g item cs nodes mid)
    (h' : Chain g item mid more next) : Chain g item cs (nodes ++ more) next := by
  rintro r rfl
  obtain ⟨s, hs, hmid⟩ := h
  obtain ⟨rest, hrest, hnext⟩ := h' s hmid
  exact ⟨rest, Reads.repeats hs hrest, hnext⟩

/-- A star is a repetition where no blanks come first. -/
theorem Chain.star [g.HasBlanks] (h : Chain g item cs nodes next) (hcs : g.skip .words cs = cs) :
    Leads g (.star item) cs nodes next := by
  obtain ⟨rest, hrest, hnext⟩ := h cs hcs
  exact ⟨rest, hrest.star hcs, hnext⟩

end RdfStore.Peg

namespace RdfStore.Peg

variable {R R' : Type}

/-! ## New names -/

/-- An expression under new names of the rules. -/
def Expr.rename (f : R → R') : Expr R → Expr R'
  | .nothing => .nothing
  | .char isMember => .char isMember
  | .text chars => .text chars
  | .word chars => .word chars
  | .rule r => .rule (f r)
  | .seq first second => .seq (first.rename f) (second.rename f)
  | .choice first second => .choice (first.rename f) (second.rename f)
  | .star item => .star (item.rename f)
  | .notAhead item => .notAhead (item.rename f)
  | .ahead item => .ahead (item.rename f)

/-- A task under new names of the rules. -/
def Task.rename (f : R → R') : Task R → Task R'
  | .once e => .once (e.rename f)
  | .again item => .again (item.rename f)

/-- A production under new names of the rules. -/
def Production.rename (f : R → R') (p : Production R) : Production R' :=
  ⟨p.manner, p.body.rename f⟩

mutual

/-- An outline under new names of the rules. -/
def Outline.rename (f : R → R') : Outline R → Outline R'
  | .node r text children => .node (f r) text (Outline.renameAll f children)

/-- Outlines under new names of the rules. -/
def Outline.renameAll (f : R → R') : List (Outline R) → List (Outline R')
  | [] => []
  | o :: os => o.rename f :: Outline.renameAll f os

end

/-- Outlines in a row are renamed one by one. -/
theorem Outline.renameAll_append (f : R → R') (nodes more : List (Outline R)) :
    Outline.renameAll f (nodes ++ more) =
      Outline.renameAll f nodes ++ Outline.renameAll f more := by
  induction nodes with
  | nil => rfl
  | cons o os ih => rw [List.cons_append, renameAll, renameAll, ih, List.cons_append]

/-- What a run ends with, under new names of the rules. -/
def Result.rename (f : R → R') (result : Result R) : Result R' :=
  result.map fun r => (Outline.renameAll f r.1, r.2)

/-! ## Rules that call each other only -/

/-- An expression calls no rules but shared ones. -/
def Expr.callsOnly (shared : R → Bool) : Expr R → Bool
  | .nothing | .char _ | .text _ | .word _ => true
  | .rule r => shared r
  | .seq first second | .choice first second => first.callsOnly shared && second.callsOnly shared
  | .star item | .notAhead item | .ahead item => item.callsOnly shared

/-- The shared rules of a grammar call each other only. -/
def Grammar.IsClosed (g : Grammar R) (shared : R → Bool) : Prop :=
  ∀ r, shared r = true → (g.production r).body.callsOnly shared = true

/-- Every rule of an outline is shared. -/
inductive Outline.IsOver (shared : R → Bool) : Outline R → Prop where
  | node {r : R} {text : List Char} {children : List (Outline R)} (h : shared r = true)
    (hchildren : ∀ child ∈ children, IsOver shared child) : IsOver shared (.node r text children)

/-- Rules that call each other only leave no other nodes. -/
theorem Runs.isOver {g : Grammar R} {shared : R → Bool} (hg : g.IsClosed shared) {mode : Mode}
    {task : Task R} {cs rest : List Char} {nodes : List (Outline R)}
    (h : Runs g mode task cs (some (nodes, rest))) (hcalls : task.expr.callsOnly shared = true) :
    ∀ o ∈ nodes, o.IsOver shared := by
  generalize hresult : some (nodes, rest) = result at h
  induction h generalizing nodes rest with
  | nothing | char _ | text _ | word _ | star_stop _ _ | again_stop _ _ | notAhead _ _
  | ahead _ _ =>
    cases hresult
    exact nofun
  | char_failed _ | text_failed _ | word_failed _ | rule_failed _ _ | seq_left _ _
  | seq_right _ _ _ _ | notAhead_failed _ _ | ahead_failed _ _ => cases hresult
  | @rule mode r cs taken rest' inner _ _ ih =>
    have hinner := ih (hg r hcalls) rfl
    obtain ⟨rfl, rfl⟩ := Prod.mk.inj (Option.some.inj hresult)
    intro o ho
    unfold Grammar.around at ho
    split at ho
    · rw [List.mem_singleton.mp ho]
      exact .node hcalls hinner
    · exact hinner o ho
  | seq _ _ ih ih' =>
    obtain ⟨hfirst, hsecond⟩ := Bool.and_eq_true_iff.mp hcalls
    obtain ⟨rfl, rfl⟩ := Prod.mk.inj (Option.some.inj hresult)
    exact fun o ho => (List.mem_append.mp ho).elim (ih hfirst rfl o) (ih' hsecond rfl o)
  | choice_left _ ih => exact ih (Bool.and_eq_true_iff.mp hcalls).1 hresult
  | choice_right _ _ _ ih' => exact ih' (Bool.and_eq_true_iff.mp hcalls).2 hresult
  | star _ _ ih ih' | again _ _ ih ih' =>
    obtain ⟨rfl, rfl⟩ := Prod.mk.inj (Option.some.inj hresult)
    exact fun o ho => (List.mem_append.mp ho).elim (ih hcalls rfl o) (ih' hcalls rfl o)

/-- What a closed set of rules leaves are nodes of these rules. -/
theorem Leaves.isShared {g : Grammar R} {shared : R → Bool} (hg : g.IsClosed shared) {mode : Mode}
    {e : Expr R} {rules : List R} (h : Leaves g mode e rules)
    (hcalls : e.callsOnly shared = true) : ∀ r ∈ rules, shared r = true := by
  induction h with
  | nothing | char | text | word | stop | notAhead | ahead =>
    exact fun r hr => absurd hr List.not_mem_nil
  | visible _ => exact fun r hr => List.mem_singleton.mp hr ▸ hcalls
  | hidden _ _ ih => exact ih (hg _ hcalls)
  | seq _ _ ih ih' =>
    obtain ⟨hfirst, hsecond⟩ := Bool.and_eq_true_iff.mp hcalls
    exact fun r hr => (List.mem_append.mp hr).elim (ih hfirst r) (ih' hsecond r)
  | left _ ih => exact ih (Bool.and_eq_true_iff.mp hcalls).1
  | right _ ih => exact ih (Bool.and_eq_true_iff.mp hcalls).2
  | more _ _ ih ih' =>
    exact fun r hr => (List.mem_append.mp hr).elim (ih hcalls r) (ih' hcalls r)

/-! ## Renamed grammars -/

/-- A grammar has the shared rules of another one under new names. -/
structure Renames (g : Grammar R) (g' : Grammar R') (f : R → R') (shared : R → Bool) : Prop where
  blanks : g'.blanks = g.blanks
  production : ∀ r, shared r = true → g'.production (f r) = (g.production r).rename f
  isClosed : g.IsClosed shared

section Renames

variable {g : Grammar R} {g' : Grammar R'} {f : R → R'} {shared : R → Bool} {mode : Mode}

/-- Renaming the rules leaves the blanks as they are. -/
theorem Renames.skip_eq (hf : Renames g g' f shared) (mode : Mode) (cs : List Char) :
    g'.skip mode cs = g.skip mode cs := by
  unfold Grammar.skip
  rw [hf.blanks]

/-- A rule leaves the same outline as under its old name. -/
theorem Renames.around_eq (hf : Renames g g' f shared) {r : R} (hr : shared r = true) (mode : Mode)
    (taken : List Char) (nodes : List (Outline R)) :
    g'.around (f r) mode taken (Outline.renameAll f nodes) =
      Outline.renameAll f (g.around r mode taken nodes) := by
  unfold Grammar.around Grammar.outlineText
  rw [hf.production r hr]
  unfold Production.rename
  split <;> rfl

/-- A run is a run of the renamed grammar. -/
theorem Runs.rename (hf : Renames g g' f shared) {task : Task R} {cs : List Char}
    {result : Result R} (h : Runs g mode task cs result)
    (hcalls : task.expr.callsOnly shared = true) :
    Runs g' mode (task.rename f) cs (result.rename f) := by
  induction h with
  | nothing => exact .nothing
  | char h => exact .char h
  | char_failed h => exact .char_failed h
  | text h => exact .text h
  | text_failed h => exact .text_failed h
  | word h => exact .word h
  | word_failed h => exact .word_failed h
  | @rule mode r cs taken rest nodes hcs _ ih =>
    have hbody := ih (hf.isClosed r hcalls)
    have hproduction := hf.production r hcalls
    have hmanner : (g'.production (f r)).manner = (g.production r).manner := by
      rw [hproduction]
      rfl
    have hrenamed : (g'.production (f r)).body = (g.production r).body.rename f := by
      rw [hproduction]
      rfl
    unfold Result.rename
    rw [Option.map_some, ← hf.around_eq hcalls]
    refine .rule hcs ?_
    rw [hmanner, hrenamed]
    exact hbody
  | @rule_failed mode r cs _ ih =>
    have hbody := ih (hf.isClosed r hcalls)
    have hproduction := hf.production r hcalls
    refine .rule_failed ?_
    rw [hproduction]
    exact hbody
  | seq _ _ ih ih' =>
    obtain ⟨hfirst, hsecond⟩ := Bool.and_eq_true_iff.mp hcalls
    have hmore := ih' hsecond
    -- both grammars skip the same blanks between the two
    unfold Result.rename
    rw [Option.map_some, Outline.renameAll_append]
    rw [← hf.skip_eq] at hmore
    exact .seq (ih hfirst) hmore
  | seq_left _ ih => exact .seq_left (ih (Bool.and_eq_true_iff.mp hcalls).1)
  | seq_right _ _ ih ih' =>
    obtain ⟨hfirst, hsecond⟩ := Bool.and_eq_true_iff.mp hcalls
    have hmore := ih' hsecond
    rw [← hf.skip_eq] at hmore
    exact .seq_right (ih hfirst) hmore
  | choice_left _ ih => exact .choice_left (ih (Bool.and_eq_true_iff.mp hcalls).1)
  | choice_right _ _ ih ih' =>
    obtain ⟨hfirst, hsecond⟩ := Bool.and_eq_true_iff.mp hcalls
    exact .choice_right (ih hfirst) (ih' hsecond)
  | star_stop _ ih => exact .star_stop (ih hcalls)
  | star _ _ ih ih' =>
    unfold Result.rename
    rw [Option.map_some, Outline.renameAll_append]
    exact .star (ih hcalls) (ih' hcalls)
  | again_stop _ ih =>
    have hitem := ih hcalls
    rw [← hf.skip_eq] at hitem
    exact .again_stop hitem
  | again _ _ ih ih' =>
    have hitem := ih hcalls
    rw [← hf.skip_eq] at hitem
    unfold Result.rename
    rw [Option.map_some, Outline.renameAll_append]
    exact .again hitem (ih' hcalls)
  | notAhead _ ih => exact .notAhead (ih hcalls)
  | notAhead_failed _ ih => exact .notAhead_failed (ih hcalls)
  | ahead _ ih => exact .ahead (ih hcalls)
  | ahead_failed _ ih => exact .ahead_failed (ih hcalls)

/-- What an expression reads up to a word, it reads under new names. -/
theorem Leads.rename [g.HasBlanks] [g'.HasBlanks] (hf : Renames g g' f shared) {e : Expr R}
    {cs next : List Char} {nodes : List (Outline R)} (h : Leads g e cs nodes next)
    (hcalls : e.callsOnly shared = true) :
    Leads g' (e.rename f) cs (Outline.renameAll f nodes) next := by
  obtain ⟨rest, hread, hnext⟩ := h
  have hrun : Runs g' .words (.once (e.rename f)) cs (some (Outline.renameAll f nodes, rest)) :=
    hread.runs.rename hf hcalls
  exact ⟨rest, hrun.reads, (hf.skip_eq .words rest).trans hnext⟩

end Renames

end RdfStore.Peg
