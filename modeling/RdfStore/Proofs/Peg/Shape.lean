import RdfStore.Peg.Match

/-!
# The shape of what is matched

From an expression alone one can say which rules leave nodes when it matches, and in which order.
A node is formed when its children are such nodes for the body of its rule and are formed
themselves. All nodes that a match leaves are formed, so whoever walks over them can rely on the
grammar.
-/

set_option autoImplicit false

namespace RdfStore.Peg

variable {R : Type} {g : Grammar R}

/-- Matching an expression can leave nodes of these rules, in this order. -/
inductive Leaves (g : Grammar R) : Mode → Expr R → List R → Prop where
  | nothing {mode : Mode} : Leaves g mode .nothing []
  | char {mode : Mode} {isMember : Char → Bool} : Leaves g mode (.char isMember) []
  | text {mode : Mode} {chars : List Char} : Leaves g mode (.text chars) []
  | word {mode : Mode} {chars : List Char} : Leaves g mode (.word chars) []
  | visible {mode : Mode} {r : R} (hvisible : (g.production r).manner.isVisible mode = true) :
    Leaves g mode (.rule r) [r]
  | hidden {mode : Mode} {r : R} {rules : List R}
    (hhidden : (g.production r).manner.isVisible mode = false)
    (h : Leaves g ((g.production r).manner.bodyMode mode) (g.production r).body rules) :
    Leaves g mode (.rule r) rules
  | seq {mode : Mode} {first second : Expr R} {rules more : List R}
    (h : Leaves g mode first rules) (h' : Leaves g mode second more) :
    Leaves g mode (.seq first second) (rules ++ more)
  | left {mode : Mode} {first second : Expr R} {rules : List R}
    (h : Leaves g mode first rules) : Leaves g mode (.choice first second) rules
  | right {mode : Mode} {first second : Expr R} {rules : List R}
    (h : Leaves g mode second rules) : Leaves g mode (.choice first second) rules
  | stop {mode : Mode} {item : Expr R} : Leaves g mode (.star item) []
  | more {mode : Mode} {item : Expr R} {rules more : List R}
    (h : Leaves g mode item rules) (h' : Leaves g mode (.star item) more) :
    Leaves g mode (.star item) (rules ++ more)
  | notAhead {mode : Mode} {item : Expr R} : Leaves g mode (.notAhead item) []
  | ahead {mode : Mode} {item : Expr R} : Leaves g mode (.ahead item) []

/-- A node whose children are what the body of its rule leaves, at every depth. -/
inductive IsFormed (g : Grammar R) : ParseTree R → Prop where
  | node {r : R} {start : Nat} {text : List Char} {children : List (ParseTree R)} {mode : Mode}
    (hvisible : (g.production r).manner.isVisible mode = true)
    (hleaves : Leaves g ((g.production r).manner.bodyMode mode) (g.production r).body
      (children.map ParseTree.rule))
    (hchildren : ∀ child ∈ children, IsFormed g child) :
    IsFormed g (.node r start text children)

/-- The children of a formed tree are formed. -/
theorem IsFormed.children {tree : ParseTree R} (h : IsFormed g tree) :
    ∀ child ∈ tree.children, IsFormed g child := by
  cases h with
  | node _ _ hchildren => exact hchildren

/-! ## Matches leave formed nodes -/

/-- Nodes that an expression can leave, all of them formed. -/
def AreLeft (g : Grammar R) (mode : Mode) (e : Expr R) (nodes : List (ParseTree R)) : Prop :=
  Leaves g mode e (nodes.map ParseTree.rule) ∧ ∀ node ∈ nodes, IsFormed g node

/-- A match leaves nodes that the expression can leave. -/
def Outcome.Forms (g : Grammar R) (mode : Mode) (e : Expr R) (o : Outcome R) : Prop :=
  ∀ nodes s, o = .matched nodes s → AreLeft g mode e nodes

/-- No trees are left of what leaves none. -/
theorem areLeft_nil {mode : Mode} {e : Expr R} (h : Leaves g mode e []) : AreLeft g mode e [] :=
  ⟨h, fun _ hnode => absurd hnode List.not_mem_nil⟩

section Match

variable {call : R → Mode → State → Outcome R} {fuel : Nat} {mode : Mode}
  {first second item : Expr R} {nodes others : List (ParseTree R)}

/-- What two expressions leave is left by their sequence. -/
theorem AreLeft.seq (h : AreLeft g mode first nodes) (h' : AreLeft g mode second others) :
    AreLeft g mode (.seq first second) (nodes ++ others) := by
  refine ⟨?_, fun node hnode => ?_⟩
  · rw [List.map_append]
    exact .seq h.1 h'.1
  · exact (List.mem_append.mp hnode).elim (h.2 node) (h'.2 node)

/-- What an item leaves, and then its repetition, is left by the repetition. -/
theorem AreLeft.again (h : AreLeft g mode item nodes) (h' : AreLeft g mode (.star item) others) :
    AreLeft g mode (.star item) (nodes ++ others) := by
  refine ⟨?_, fun node hnode => ?_⟩
  · rw [List.map_append]
    exact .more h.1 h'.1
  · exact (List.mem_append.mp hnode).elim (h.2 node) (h'.2 node)

/-- A repetition leaves formed trees if each step does. -/
theorem repeatStep_forms {step : State → Outcome R}
    (h : ∀ s, (step s).Forms g mode item) (fuel : Nat) (s : State) :
    (repeatStep step fuel s).Forms g mode (.star item) := by
  induction fuel generalizing s with
  | zero =>
    intro nodes s' hs'
    cases hs'
  | succ fuel ih =>
    intro nodes s' hs'
    unfold repeatStep at hs'
    split at hs'
    · rename_i front s₁ hfront
      have hfirst := h s front s₁ hfront
      split at hs'
      · rename_i rest s₂ hrest
        have hothers := ih s₁ rest s₂ hrest
        cases hs'
        exact hfirst.again hothers
      · rename_i hrest
        exact absurd hs' (hrest nodes s')
    · cases hs'
      exact areLeft_nil .stop
    · cases hs'

/-- If the calls leave what their rules leave, so do expressions. -/
theorem matchExpr_forms (hcall : ∀ r mode s, (call r mode s).Forms g mode (.rule r)) (e : Expr R)
    (s : State) : (matchExpr g call fuel mode e s).Forms g mode e := by
  induction e generalizing s with
  | nothing =>
    intro nodes s' hs'
    cases hs'
    exact areLeft_nil .nothing
  | char isMember =>
    intro nodes s' hs'
    unfold matchExpr at hs'
    split at hs'
    · split at hs' <;> cases hs'
      exact areLeft_nil .char
    · cases hs'
  | text chars =>
    intro nodes s' hs'
    unfold matchExpr at hs'
    split at hs' <;> cases hs'
    exact areLeft_nil .text
  | word chars =>
    intro nodes s' hs'
    unfold matchExpr at hs'
    split at hs' <;> cases hs'
    exact areLeft_nil .word
  | rule r => exact hcall r mode s
  | seq first second ihFirst ihSecond =>
    intro nodes s' hs'
    unfold matchExpr at hs'
    split at hs'
    · rename_i front s₁ hfront
      have hfirst := ihFirst s front s₁ hfront
      split at hs'
      · rename_i rest s₂ hrest
        have hsecond := ihSecond _ rest s₂ hrest
        cases hs'
        exact hfirst.seq hsecond
      · rename_i hrest
        exact absurd hs' (hrest nodes s')
    · rename_i hfront
      exact absurd hs' (hfront nodes s')
  | choice first second ihFirst ihSecond =>
    intro nodes s' hs'
    unfold matchExpr at hs'
    split at hs'
    · obtain ⟨hleaves, hformed⟩ := ihSecond _ nodes s' hs'
      exact ⟨.right hleaves, hformed⟩
    · obtain ⟨hleaves, hformed⟩ := ihFirst s nodes s' hs'
      exact ⟨.left hleaves, hformed⟩
  | star item ih =>
    intro nodes s' hs'
    unfold matchExpr at hs'
    split at hs'
    · rename_i front s₁ hfront
      have hfirst := ih s front s₁ hfront
      split at hs'
      · rename_i rest s₂ hrest
        have hothers := repeatStep_forms (fun s => ih (skipBlanks g mode s)) fuel s₁ rest s₂ hrest
        cases hs'
        exact hfirst.again hothers
      · rename_i hrest
        exact absurd hs' (hrest nodes s')
    · cases hs'
      exact areLeft_nil .stop
    · cases hs'
  | notAhead item _ =>
    intro nodes s' hs'
    unfold matchExpr at hs'
    split at hs' <;> cases hs'
    exact areLeft_nil .notAhead
  | ahead item _ =>
    intro nodes s' hs'
    unfold matchExpr at hs'
    split at hs' <;> cases hs'
    exact areLeft_nil .ahead

end Match

/-- A rule that is matched leaves a formed tree. -/
theorem matchRule_forms (g : Grammar R) (fuel : Nat) (r : R) (mode : Mode) (s : State) :
    (matchRule g fuel r mode s).Forms g mode (.rule r) := by
  induction fuel generalizing r mode s with
  | zero =>
    intro nodes s' hs'
    cases hs'
  | succ fuel ih =>
    intro nodes s' hs'
    unfold matchRule at hs'
    dsimp only at hs'
    split at hs'
    · rename_i inner s₁ hinner
      obtain ⟨hleaves, hformed⟩ := matchExpr_forms ih _ s inner s₁ hinner
      split at hs'
      · rename_i hvisible
        cases hs'
        refine ⟨.visible hvisible, fun node hnode => ?_⟩
        rw [List.mem_singleton.mp hnode]
        exact .node hvisible hleaves hformed
      · rename_i hhidden
        cases hs'
        exact ⟨.hidden (Bool.eq_false_iff.mpr hhidden) hleaves, hformed⟩
    · cases hs'
    · cases hs'

/-- The nodes of a text are formed. -/
theorem Grammar.isFormed_of_parse {r : R} {cs : List Char} {nodes : List (ParseTree R)}
    (h : g.parse r cs = .ok nodes) : ∀ node ∈ nodes, IsFormed g node := by
  unfold Grammar.parse at h
  split at h
  · rename_i left s hmatched
    cases h
    exact (matchRule_forms g _ r .words _ nodes s hmatched).2
  · cases h
  · cases h

/-! ## Which rules leave nodes -/

/-- The rules that an expression calls. -/
def Expr.calls : Expr R → List R
  | .nothing | .char _ | .text _ | .word _ | .notAhead _ | .ahead _ => []
  | .rule r => [r]
  | .seq first second | .choice first second => first.calls ++ second.calls
  | .star item => item.calls

/-- Where no call is hidden, only the called rules leave nodes. -/
theorem Leaves.mem_calls {mode : Mode} {e : Expr R} {rules : List R} (h : Leaves g mode e rules)
    (hvisible : ∀ r ∈ e.calls, (g.production r).manner.isVisible mode = true) :
    ∀ r ∈ rules, r ∈ e.calls := by
  induction h with
  | nothing | char | text | word | stop | notAhead | ahead =>
    exact fun r hr => absurd hr List.not_mem_nil
  | visible _ => exact fun r hr => hr
  | hidden hhidden _ _ =>
    rw [hvisible _ List.mem_cons_self] at hhidden
    cases hhidden
  | seq _ _ ih ih' =>
    intro r hr
    rcases List.mem_append.mp hr with hr | hr
    · exact List.mem_append_left _ (ih (fun q hq => hvisible q (List.mem_append_left _ hq)) r hr)
    · exact List.mem_append_right _ (ih' (fun q hq => hvisible q (List.mem_append_right _ hq)) r hr)
  | left _ ih =>
    exact fun r hr => List.mem_append_left _
      (ih (fun q hq => hvisible q (List.mem_append_left _ hq)) r hr)
  | right _ ih =>
    exact fun r hr => List.mem_append_right _
      (ih (fun q hq => hvisible q (List.mem_append_right _ hq)) r hr)
  | more _ _ ih ih' =>
    exact fun r hr => (List.mem_append.mp hr).elim (ih hvisible r) (ih' hvisible r)

/-- A call that is not hidden leaves one node. -/
theorem Leaves.of_visible {mode : Mode} {r : R} {rules : List R}
    (h : Leaves g mode (.rule r) rules)
    (hvisible : (g.production r).manner.isVisible mode = true) : rules = [r] := by
  cases h with
  | visible _ => rfl
  | hidden hhidden _ =>
    rw [hvisible] at hhidden
    cases hhidden

/-- The lists of rules that an expression can leave, apart from some rules, where it repeats no
others. -/
def Expr.shapes? (isApart : R → Bool) : Expr R → Option (List (List R))
  | .nothing | .char _ | .text _ | .word _ | .notAhead _ | .ahead _ => some [[]]
  | .rule r => some [if isApart r then [] else [r]]
  | .seq first second => do
    let fronts ← first.shapes? isApart
    let backs ← second.shapes? isApart
    return fronts.flatMap fun front => backs.map (front ++ ·)
  | .choice first second => return (← first.shapes? isApart) ++ (← second.shapes? isApart)
  | .star item => if item.calls.all isApart then some [[]] else none

/-- Where no call is hidden, the rules that leave nodes are one of these lists. -/
theorem Leaves.mem_shapes {mode : Mode} {e : Expr R} {rules : List R} {isApart : R → Bool}
    {shapes : List (List R)} (h : Leaves g mode e rules) (he : e.shapes? isApart = some shapes)
    (hvisible : ∀ r ∈ e.calls, (g.production r).manner.isVisible mode = true) :
    rules.filter (fun r => !isApart r) ∈ shapes := by
  induction h generalizing shapes with
  | nothing | char | text | word | notAhead | ahead =>
    cases he
    exact List.mem_singleton_self _
  | visible _ =>
    cases he
    refine List.mem_singleton.mpr ?_
    rw [List.filter_cons]
    cases isApart _ <;> rfl
  | hidden hhidden _ _ =>
    rw [hvisible _ List.mem_cons_self] at hhidden
    cases hhidden
  | seq _ _ ih ih' =>
    obtain ⟨fronts, hfronts, he⟩ := Option.bind_eq_some_iff.mp he
    obtain ⟨backs, hbacks, he⟩ := Option.bind_eq_some_iff.mp he
    cases he
    have hfront := ih hfronts fun q hq => hvisible q (List.mem_append_left _ hq)
    have hback := ih' hbacks fun q hq => hvisible q (List.mem_append_right _ hq)
    rw [List.filter_append]
    exact List.mem_flatMap.mpr ⟨_, hfront, List.mem_map_of_mem hback⟩
  | left _ ih =>
    obtain ⟨fronts, hfronts, he⟩ := Option.bind_eq_some_iff.mp he
    obtain ⟨backs, hbacks, he⟩ := Option.bind_eq_some_iff.mp he
    cases he
    exact List.mem_append_left _ (ih hfronts fun q hq => hvisible q (List.mem_append_left _ hq))
  | right _ ih =>
    obtain ⟨fronts, hfronts, he⟩ := Option.bind_eq_some_iff.mp he
    obtain ⟨backs, hbacks, he⟩ := Option.bind_eq_some_iff.mp he
    cases he
    exact List.mem_append_right _ (ih hbacks fun q hq => hvisible q (List.mem_append_right _ hq))
  | stop =>
    unfold Expr.shapes? at he
    split at he <;> cases he
    exact List.mem_singleton_self _
  | @more _ item rules more h h' _ _ =>
    unfold Expr.shapes? at he
    split at he <;> cases he
    rename_i hall
    refine List.mem_singleton.mpr (List.filter_eq_nil_iff.mpr fun r hr => ?_)
    have hcalls := (Leaves.more h h').mem_calls hvisible r hr
    simp [List.all_eq_true.mp hall r hcalls]

/-- The same of all the rules. -/
theorem Leaves.shape {mode : Mode} {e : Expr R} {rules : List R} {shapes : List (List R)}
    (h : Leaves g mode e rules) (he : e.shapes? (fun _ => false) = some shapes)
    (hvisible : ∀ r ∈ e.calls, (g.production r).manner.isVisible mode = true) :
    rules ∈ shapes := by
  have hall : rules.filter (fun _ => !false) = rules := List.filter_eq_self.mpr fun _ _ => rfl
  exact hall ▸ h.mem_shapes he hvisible

/-- What an item leaves, and what is put together of such lists, is left by its repetition. -/
theorem Leaves.of_star {mode : Mode} {item : Expr R} {rules : List R} {p : List R → Prop}
    (h : Leaves g mode (.star item) rules) (hnil : p [])
    (happend : ∀ front back, p front → p back → p (front ++ back))
    (hitem : ∀ front, Leaves g mode item front → p front) : p rules := by
  generalize he : Expr.star item = e at h
  induction h with
  | stop => exact hnil
  | more hfirst _ _ ih =>
    cases he
    exact happend _ _ (hitem _ hfirst) (ih hitem rfl)
  | _ => cases he

/-- Nothing is left where nothing is called. -/
theorem Leaves.eq_nil {mode : Mode} {e : Expr R} {rules : List R} (h : Leaves g mode e rules)
    (hcalls : e.calls = []) : rules = [] := by
  refine List.eq_nil_iff_forall_not_mem.mpr fun r hr => ?_
  have hmem := h.mem_calls (fun q hq => absurd (hcalls ▸ hq) List.not_mem_nil) r hr
  exact absurd (hcalls ▸ hmem) List.not_mem_nil

/-- Rules of one list, each followed by the same rule. -/
inductive ArePairs (firsts : List R) (second : R) : List R → Prop where
  | nil : ArePairs firsts second []
  | cons {first : R} {rest : List R} (hfirst : first ∈ firsts) (hrest : ArePairs firsts second rest) :
    ArePairs firsts second (first :: second :: rest)

/-- Pairs followed by pairs are pairs. -/
theorem ArePairs.append {firsts rules more : List R} {second : R} (h : ArePairs firsts second rules)
    (h' : ArePairs firsts second more) : ArePairs firsts second (rules ++ more) := by
  induction h with
  | nil => exact h'
  | cons hfirst _ ih => exact .cons hfirst ih

/-- Pairs start with a first and its second. -/
theorem ArePairs.of_cons {firsts rest : List R} {first second other : R}
    (h : ArePairs firsts second (first :: other :: rest)) :
    first ∈ firsts ∧ other = second ∧ ArePairs firsts second rest := by
  cases h with
  | cons hfirst hrest => exact ⟨hfirst, rfl, hrest⟩

/-- Pairs, and more of them behind marks. -/
theorem Leaves.arePairs {mode : Mode} {rules firsts : List R} {second : R} {pair mark : Expr R}
    (h : Leaves g mode (.seq pair (.star (.seq mark (.choice pair .nothing)))) rules)
    (hpair : pair.shapes? (fun _ => false) = some (firsts.map fun first => [first, second]))
    (hmark : mark.calls = [])
    (hvisible : ∀ r ∈ pair.calls, (g.production r).manner.isVisible mode = true) :
    ArePairs firsts second rules := by
  have hone : ∀ shape, Leaves g mode pair shape → ArePairs firsts second shape := by
    intro shape hshape
    obtain ⟨first, hfirst, rfl⟩ := List.mem_map.mp (hshape.shape hpair hvisible)
    exact .cons hfirst .nil
  cases h with
  | seq hfirst hmore =>
    refine (hone _ hfirst).append ?_
    refine hmore.of_star .nil (fun _ _ => ArePairs.append) fun front hfront => ?_
    cases hfront with
    | seq hmarks hopt =>
      rw [hmarks.eq_nil hmark, List.nil_append]
      cases hopt with
      | left hpairs => exact hone _ hpairs
      | right hnothing =>
        cases hnothing
        exact .nil

/-- The node of a rule that calls no other has no children. -/
theorem IsFormed.children_eq_nil {r : R} {start : Nat} {text : List Char}
    {children : List (ParseTree R)} (h : IsFormed g (.node r start text children))
    (hcalls : (g.production r).body.calls = []) : children = [] := by
  cases h with
  | node _ hleaves _ => exact List.map_eq_nil_iff.mp (hleaves.eq_nil hcalls)

/-! ## Nodes made of words -/

/-- Outside of tokens a rule leaves a node unless it is silent. -/
theorem Manner.isVisible_of_ne {manner : Manner} {mode : Mode} (h : manner ≠ .silent)
    (hmode : mode ≠ .token) : manner.isVisible mode = true := by
  cases manner with
  | words | token => exact bne_iff_ne.mpr hmode
  | compound => rfl
  | silent => exact absurd rfl h

section Words

variable {r : R} {start : Nat} {text : List Char} {children : List (ParseTree R)}

/-- The children of a node made of words are what its rule leaves. -/
theorem IsFormed.leaves (h : IsFormed g (.node r start text children))
    (hwords : (g.production r).manner = .words) :
    ∃ mode, mode ≠ .token ∧ Leaves g mode (g.production r).body (children.map ParseTree.rule) := by
  cases h with
  | @node _ _ _ _ mode hvisible hleaves _ =>
    rw [hwords] at hvisible hleaves
    refine ⟨mode, ?_, hleaves⟩
    rintro rfl
    cases hvisible

/-- What starts with a call has the node of this call first. -/
theorem IsFormed.exists_first {q : R} {more : Expr R} (h : IsFormed g (.node r start text children))
    (hwords : (g.production r).manner = .words) (hbody : (g.production r).body = .seq (.rule q) more)
    (hq : (g.production q).manner ≠ .silent) :
    ∃ first rest, children = first :: rest ∧ first.rule = q := by
  obtain ⟨mode, hmode, hleaves⟩ := h.leaves hwords
  rw [hbody] at hleaves
  generalize hrules : children.map ParseTree.rule = rules at hleaves
  cases hleaves with
  | seq hfirst _ =>
    rw [hfirst.of_visible (Manner.isVisible_of_ne hq hmode)] at hrules
    obtain ⟨first, rest, rfl, hrule, -⟩ := List.map_eq_cons_iff.mp hrules
    exact ⟨first, rest, rfl, hrule⟩

variable (h : IsFormed g (.node r start text children))
  (hwords : (g.production r).manner = .words)
  (hshown : ∀ q ∈ (g.production r).body.calls, (g.production q).manner ≠ .silent)

include h hwords hshown

/-- The children of a formed node are of rules that the body calls. -/
theorem IsFormed.mem_calls : ∀ child ∈ children, child.rule ∈ (g.production r).body.calls := by
  obtain ⟨mode, hmode, hleaves⟩ := h.leaves hwords
  intro child hchild
  exact hleaves.mem_calls (fun q hq => Manner.isVisible_of_ne (hshown q hq) hmode) _
    (List.mem_map_of_mem hchild)

/-- The rules of the children of a formed node are one of the shapes of the body. -/
theorem IsFormed.mem_shapes {isApart : R → Bool} {shapes : List (List R)}
    (hshapes : (g.production r).body.shapes? isApart = some shapes) :
    (children.map ParseTree.rule).filter (fun q => !isApart q) ∈ shapes := by
  obtain ⟨mode, hmode, hleaves⟩ := h.leaves hwords
  exact hleaves.mem_shapes hshapes fun q hq => Manner.isVisible_of_ne (hshown q hq) hmode

/-- Where a rule repeats nothing, its children are known altogether. -/
theorem IsFormed.shape {shapes : List (List R)}
    (hshapes : (g.production r).body.shapes? (fun _ => false) = some shapes) :
    children.map ParseTree.rule ∈ shapes := by
  obtain ⟨mode, hmode, hleaves⟩ := h.leaves hwords
  exact hleaves.shape hshapes fun q hq => Manner.isVisible_of_ne (hshown q hq) hmode

end Words

/-- Nodes of one rule. -/
theorem eq_singleton_of_map_rule {nodes : List (ParseTree R)} {r : R}
    (h : nodes.map ParseTree.rule = [r]) : ∃ node, nodes = [node] ∧ node.rule = r := by
  obtain ⟨node, rest, rfl, hrule, hrest⟩ := List.map_eq_cons_iff.mp h
  rw [List.map_eq_nil_iff.mp hrest]
  exact ⟨node, rfl, hrule⟩

/-- Two nodes by their rules are two nodes. -/
theorem eq_pair_of_map_rule {nodes : List (ParseTree R)} {r r' : R}
    (h : nodes.map ParseTree.rule = [r, r']) :
    ∃ node node', nodes = [node, node'] ∧ node.rule = r ∧ node'.rule = r' := by
  obtain ⟨node, rest, rfl, hrule, hrest⟩ := List.map_eq_cons_iff.mp h
  obtain ⟨node', rfl, hrule'⟩ := eq_singleton_of_map_rule hrest
  exact ⟨node, node', rfl, hrule, hrule'⟩

end RdfStore.Peg
