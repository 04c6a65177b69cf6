import RdfStore.Proofs.Peg.Runs
import RdfStore.Proofs.Peg.Shape

/-!
# How trees grow

A run says which outlines are left. Growth says which trees are: it follows the run with the place
of every node, counted from the end of the document, since that is what the rest of a text tells.
From every run trees grow, and what has grown is what a parse leaves.
-/

set_option autoImplicit false

namespace RdfStore.Peg

variable {R : Type}

/-- The trees that a rule leaves around those of its body. -/
def Grammar.grown (g : Grammar R) (r : R) (mode : Mode) (start : Nat) (taken : List Char)
    (trees : List (ParseTree R)) : List (ParseTree R) :=
  if (g.production r).manner.isVisible mode then [.node r start taken trees] else trees

/-- Which trees a task leaves at a text that ends a document of so many characters, and the rest of
the text. -/
inductive Grows (g : Grammar R) (total : Nat) :
    Mode → Task R → List Char → List (ParseTree R) → List Char → Prop where
  | nothing {mode : Mode} {cs : List Char} : Grows g total mode (.once .nothing) cs [] cs
  | char {mode : Mode} {isMember : Char → Bool} {c : Char} {rest : List Char}
    (h : isMember c = true) : Grows g total mode (.once (.char isMember)) (c :: rest) [] rest
  | text {mode : Mode} {chars cs rest : List Char} (h : stripText? false chars cs = some rest) :
    Grows g total mode (.once (.text chars)) cs [] rest
  | word {mode : Mode} {chars cs rest : List Char} (h : stripText? true chars cs = some rest) :
    Grows g total mode (.once (.word chars)) cs [] rest
  | rule {mode : Mode} {r : R} {cs taken rest : List Char} {trees : List (ParseTree R)}
    (hcs : cs = taken ++ rest)
    (h : Grows g total ((g.production r).manner.bodyMode mode) (.once (g.production r).body) cs
      trees rest) :
    Grows g total mode (.once (.rule r)) cs (g.grown r mode (total - cs.length) taken trees) rest
  | seq {mode : Mode} {first second : Expr R} {cs mid rest : List Char}
    {trees more : List (ParseTree R)} (h : Grows g total mode (.once first) cs trees mid)
    (h' : Grows g total mode (.once second) (g.skip mode mid) more rest) :
    Grows g total mode (.once (.seq first second)) cs (trees ++ more) rest
  | choice_left {mode : Mode} {first second : Expr R} {cs rest : List Char}
    {trees : List (ParseTree R)} (h : Grows g total mode (.once first) cs trees rest) :
    Grows g total mode (.once (.choice first second)) cs trees rest
  | choice_right {mode : Mode} {first second : Expr R} {cs rest : List Char}
    {trees : List (ParseTree R)} (h : Runs g mode (.once first) cs none)
    (h' : Grows g total mode (.once second) cs trees rest) :
    Grows g total mode (.once (.choice first second)) cs trees rest
  | star_stop {mode : Mode} {item : Expr R} {cs : List Char}
    (h : Runs g mode (.once item) cs none) : Grows g total mode (.once (.star item)) cs [] cs
  | star {mode : Mode} {item : Expr R} {cs mid rest : List Char}
    {trees more : List (ParseTree R)} (h : Grows g total mode (.once item) cs trees mid)
    (h' : Grows g total mode (.again item) mid more rest) :
    Grows g total mode (.once (.star item)) cs (trees ++ more) rest
  | again_stop {mode : Mode} {item : Expr R} {cs : List Char}
    (h : Runs g mode (.once item) (g.skip mode cs) none) :
    Grows g total mode (.again item) cs [] cs
  | again {mode : Mode} {item : Expr R} {cs mid rest : List Char}
    {trees more : List (ParseTree R)}
    (h : Grows g total mode (.once item) (g.skip mode cs) trees mid)
    (h' : Grows g total mode (.again item) mid more rest) :
    Grows g total mode (.again item) cs (trees ++ more) rest
  | notAhead {mode : Mode} {item : Expr R} {cs : List Char}
    (h : Runs g mode (.once item) cs none) : Grows g total mode (.once (.notAhead item)) cs [] cs
  | ahead {mode : Mode} {item : Expr R} {cs rest : List Char} {nodes : List (Outline R)}
    (h : Runs g mode (.once item) cs (some (nodes, rest))) :
    Grows g total mode (.once (.ahead item)) cs [] cs

variable {g : Grammar R} {total : Nat} {mode : Mode} {task : Task R} {cs rest : List Char}
  {trees : List (ParseTree R)}

/-! ## Growth and runs -/

/-- The outlines of what a rule leaves. -/
theorem Grammar.outlines_grown (g : Grammar R) (r : R) (mode : Mode) (start : Nat)
    (taken : List Char) (trees : List (ParseTree R)) :
    g.outlines (g.grown r mode start taken trees) = g.around r mode taken (g.outlines trees) := by
  unfold Grammar.grown Grammar.around
  split <;> rfl

/-- Trees grow in a run. -/
theorem Grows.runs (h : Grows g total mode task cs trees rest) :
    Runs g mode task cs (some (g.outlines trees, rest)) := by
  induction h with
  | nothing => exact .nothing
  | char h => exact .char h
  | text h => exact .text h
  | word h => exact .word h
  | rule hcs _ ih =>
    rw [g.outlines_grown]
    exact .rule hcs ih
  | seq _ _ ih ih' =>
    rw [g.outlines_append]
    exact .seq ih ih'
  | choice_left _ ih => exact .choice_left ih
  | choice_right h _ ih => exact .choice_right h ih
  | star_stop h => exact .star_stop h
  | star _ _ ih ih' =>
    rw [g.outlines_append]
    exact .star ih ih'
  | again_stop h => exact .again_stop h
  | again _ _ ih ih' =>
    rw [g.outlines_append]
    exact .again ih ih'
  | notAhead h => exact .notAhead h
  | ahead h => exact .ahead h

/-- The expression that leaves what a task does. -/
def Task.whole : Task R → Expr R
  | .once e => e
  | .again item => .star item

/-- What has grown is formed. -/
theorem Grows.areLeft (h : Grows g total mode task cs trees rest) :
    AreLeft g mode task.whole trees := by
  induction h with
  | nothing => exact areLeft_nil .nothing
  | char => exact areLeft_nil .char
  | text => exact areLeft_nil .text
  | word => exact areLeft_nil .word
  | rule _ _ ih =>
    unfold Grammar.grown
    split
    · rename_i hvisible
      refine ⟨.visible hvisible, fun node hnode => ?_⟩
      rw [List.mem_singleton.mp hnode]
      exact .node hvisible ih.1 ih.2
    · rename_i hvisible
      exact ⟨.hidden (eq_false_of_ne_true hvisible) ih.1, ih.2⟩
  | seq _ _ ih ih' => exact ih.seq ih'
  | choice_left _ ih => exact ⟨.left ih.1, ih.2⟩
  | choice_right _ _ ih => exact ⟨.right ih.1, ih.2⟩
  | star_stop | again_stop => exact areLeft_nil .stop
  | star _ _ ih ih' | again _ _ ih ih' => exact ih.again ih'
  | notAhead => exact areLeft_nil .notAhead
  | ahead => exact areLeft_nil .ahead

section Blanks

variable [g.HasBlanks]

/-- Skipping blanks leaves an end of the text. -/
theorem skip_suffix (mode : Mode) (cs : List Char) : g.skip mode cs <:+ cs := by
  obtain ⟨blanks, hblanks, -⟩ := skipBlanks_eq (g := g) mode cs
  exact ⟨blanks, hblanks.symm⟩

/-- What is left is the end of the text. -/
theorem Grows.suffix (h : Grows g total mode task cs trees rest) : rest <:+ cs := by
  induction h with
  | nothing | star_stop | again_stop | notAhead | ahead => exact List.suffix_refl _
  | char => exact List.suffix_cons _ _
  | text h | word h =>
    obtain ⟨read, hread, -⟩ := exists_of_stripText? h
    exact ⟨read, hread.symm⟩
  | rule _ _ ih | choice_left _ ih | choice_right _ _ ih => exact ih
  | seq _ _ ih ih' => exact ih'.trans ((skip_suffix _ _).trans ih)
  | star _ _ ih ih' => exact ih'.trans ih
  | again _ _ ih ih' => exact ih'.trans (ih.trans (skip_suffix _ _))

end Blanks

/-- From every run trees grow. -/
theorem Runs.grows {result : Result R} (h : Runs g mode task cs result) (total : Nat)
    {nodes : List (Outline R)} (hresult : result = some (nodes, rest)) :
    ∃ trees, Grows g total mode task cs trees rest ∧ g.outlines trees = nodes := by
  induction h generalizing nodes rest with
  | nothing =>
    cases hresult
    exact ⟨[], .nothing, rfl⟩
  | char h =>
    cases hresult
    exact ⟨[], .char h, rfl⟩
  | text h =>
    cases hresult
    exact ⟨[], .text h, rfl⟩
  | word h =>
    cases hresult
    exact ⟨[], .word h, rfl⟩
  | rule hcs _ ih =>
    cases hresult
    obtain ⟨trees, hgrows, rfl⟩ := ih rfl
    exact ⟨_, .rule hcs hgrows, g.outlines_grown _ _ _ _ _⟩
  | seq _ _ ih ih' =>
    cases hresult
    obtain ⟨trees, hgrows, rfl⟩ := ih rfl
    obtain ⟨more, hgrows', rfl⟩ := ih' rfl
    exact ⟨_, .seq hgrows hgrows', g.outlines_append trees more⟩
  | choice_left _ ih =>
    cases hresult
    obtain ⟨trees, hgrows, htrees⟩ := ih rfl
    exact ⟨trees, .choice_left hgrows, htrees⟩
  | choice_right hfails _ _ ih =>
    obtain ⟨trees, hgrows, htrees⟩ := ih hresult
    exact ⟨trees, .choice_right hfails hgrows, htrees⟩
  | star_stop hfails =>
    cases hresult
    exact ⟨[], .star_stop hfails, rfl⟩
  | star _ _ ih ih' =>
    cases hresult
    obtain ⟨trees, hgrows, rfl⟩ := ih rfl
    obtain ⟨more, hgrows', rfl⟩ := ih' rfl
    exact ⟨_, .star hgrows hgrows', g.outlines_append trees more⟩
  | again_stop hfails =>
    cases hresult
    exact ⟨[], .again_stop hfails, rfl⟩
  | again _ _ ih ih' =>
    cases hresult
    obtain ⟨trees, hgrows, rfl⟩ := ih rfl
    obtain ⟨more, hgrows', rfl⟩ := ih' rfl
    exact ⟨_, .again hgrows hgrows', g.outlines_append trees more⟩
  | notAhead hfails =>
    cases hresult
    exact ⟨[], .notAhead hfails, rfl⟩
  | ahead h =>
    cases hresult
    exact ⟨[], .ahead h, rfl⟩
  | _ => cases hresult

/-- Without calls nothing is left. -/
theorem Runs.eq_nil {e : Expr R} {nodes : List (Outline R)}
    (h : Runs g mode (.once e) cs (some (nodes, rest))) (hcalls : e.calls = []) : nodes = [] := by
  obtain ⟨trees, hgrows, rfl⟩ := h.grows 0 rfl
  have htrees : trees = [] := List.map_eq_nil_iff.mp (hgrows.areLeft.1.eq_nil hcalls)
  rw [htrees]
  rfl

/-! ## Growth and the matcher -/

/-- How a task ends with bounds that are high enough. -/
def Task.Ends (g : Grammar R) (mode : Mode) (s : State) (o : Outcome R) : Task R → Prop
  | .once e => Peg.Ends g mode e s o
  | .again item => EndsRepeat g mode item s o

/-- Characters that are found are read by the matcher. -/
theorem exists_ends_strip {ignoreCase : Bool} {chars : List Char} {e : Expr R}
    (h : stripText? ignoreCase chars cs = some rest) {index blame : Nat}
    (he : Ends g mode e ⟨cs, index, blame⟩
      (.matched [] ⟨rest, index + chars.length, blame⟩)) (hin : index + cs.length = total) :
    ∃ index' blame', index' + rest.length = total ∧
      Ends g mode e ⟨cs, index, blame⟩ (.matched [] ⟨rest, index', blame'⟩) := by
  obtain ⟨read, rfl, hlength, -⟩ := exists_of_stripText? h
  rw [List.length_append] at hin
  exact ⟨_, blame, by omega, he⟩

variable [g.HasBlanks]

/-- Skipping blanks stays in a document. -/
theorem exists_skipBlanks (mode : Mode) {index : Nat} (blame : Nat)
    (hin : index + cs.length = total) :
    ∃ index', index' + (g.skip mode cs).length = total ∧
      skipBlanks g mode ⟨cs, index, blame⟩ = ⟨g.skip mode cs, index', blame⟩ := by
  obtain ⟨blanks, hblanks, hskip⟩ := skipBlanks_eq (g := g) mode cs
  have hlength := congrArg List.length hblanks
  rw [List.length_append] at hlength
  exact ⟨index + blanks.length, by omega, hskip index blame⟩

/-- What has grown is what the matcher leaves. -/
theorem Grows.ends (h : Grows g total mode task cs trees rest) {index : Nat} (blame : Nat)
    (hin : index + cs.length = total) :
    ∃ index' blame', index' + rest.length = total ∧
      task.Ends g mode ⟨cs, index, blame⟩ (.matched trees ⟨rest, index', blame'⟩) := by
  induction h generalizing index blame with
  | nothing => exact ⟨index, blame, hin, ends_of_eq fun _ => rfl⟩
  | char h =>
    rw [List.length_cons] at hin
    refine ⟨index + 1, blame, by omega, ends_of_eq fun _ => ?_⟩
    rw [matchExpr]
    exact if_pos h
  | text h | word h =>
    refine exists_ends_strip h (ends_of_eq fun _ => ?_) hin
    rw [matchExpr]
    dsimp only
    rw [h]
  | @rule mode r cs taken rest trees hcs _ ih =>
    obtain ⟨index', blame', hin', hends⟩ := ih blame hin
    refine ⟨index', blame', hin', ?_⟩
    have hlength := congrArg List.length hcs
    rw [List.length_append] at hlength
    obtain rfl : index = total - cs.length := by omega
    have htaken : cs.take (index' - (total - cs.length)) = taken := by
      have hread : index' - (total - cs.length) = taken.length := by omega
      rw [hread, hcs, List.take_left]
    unfold Grammar.grown
    split
    · rename_i hvisible
      rw [← htaken]
      exact Ends.rule hvisible hends
    · rename_i hvisible
      exact Ends.rule_hidden (eq_false_of_ne_true hvisible) hends
  | @seq mode first second cs mid rest trees more _ _ ih ih' =>
    obtain ⟨index₁, blame₁, hin₁, hends⟩ := ih blame hin
    obtain ⟨index₂, hin₂, hskip⟩ := exists_skipBlanks (g := g) mode blame₁ hin₁
    obtain ⟨index', blame', hin', hends'⟩ := ih' blame₁ hin₂
    rw [← hskip] at hends'
    exact ⟨index', blame', hin', Ends.seq hends hends'⟩
  | choice_left _ ih =>
    obtain ⟨index', blame', hin', hends⟩ := ih blame hin
    exact ⟨index', blame', hin', Ends.choice_left hends⟩
  | choice_right hfails _ ih =>
    obtain ⟨blame₁, hfirst⟩ := hfails.refuses index blame
    obtain ⟨index', blame', hin', hends⟩ := ih blame₁ hin
    exact ⟨index', blame', hin', Ends.choice_right hfirst hends⟩
  | star_stop hfails =>
    obtain ⟨blame', hends⟩ := hfails.refuses index blame
    exact ⟨index, blame', hin, hends.star_stop⟩
  | star _ _ ih ih' =>
    obtain ⟨index₁, blame₁, hin₁, hends⟩ := ih blame hin
    obtain ⟨index', blame', hin', hends'⟩ := ih' blame₁ hin₁
    exact ⟨index', blame', hin', hends.star_more hends'⟩
  | @again_stop mode item cs hfails =>
    obtain ⟨index', -, hskip⟩ := exists_skipBlanks (g := g) mode blame hin
    obtain ⟨blame', hends⟩ := hfails.refuses index' blame
    rw [← hskip] at hends
    exact ⟨index, blame', hin, Ends.repeat_stop hends⟩
  | @again mode item cs mid rest trees more _ _ ih ih' =>
    obtain ⟨index₁, hin₁, hskip⟩ := exists_skipBlanks (g := g) mode blame hin
    obtain ⟨index₂, blame₂, hin₂, hends⟩ := ih blame hin₁
    obtain ⟨index', blame', hin', hends'⟩ := ih' blame₂ hin₂
    rw [← hskip] at hends
    exact ⟨index', blame', hin', Ends.repeat_more hends hends'⟩
  | notAhead hfails =>
    obtain ⟨_, hends⟩ := hfails.refuses index blame
    exact ⟨index, blame, hin, Ends.notAhead hends⟩
  | ahead h =>
    obtain ⟨_, -, hreads⟩ := h.reads
    obtain ⟨_, _, -, hends⟩ := hreads index blame
    exact ⟨index, blame, hin, Ends.ahead hends⟩

/-- What has grown is parsed. -/
theorem Grows.parse {reads : R → Bool} {rank : R → Nat} (hg : g.IsGuarded reads rank) {r : R}
    (h : Grows g cs.length .words (.once (.rule r)) cs trees rest) : g.parse r cs = .ok trees := by
  obtain ⟨_, _, -, hends⟩ := h.ends 0 (Nat.zero_add cs.length)
  unfold Grammar.parse
  rw [Ends.matchRule_eq hg hends]

/-! ## What a node is -/

/-- The body of its rule has read the text of a node and left its children, at every depth. -/
inductive IsGrown (g : Grammar R) : ParseTree R → Prop where
  | node {r : R} {start total : Nat} {mode : Mode} {text rest : List Char}
    {children : List (ParseTree R)} (hvisible : (g.production r).manner.isVisible mode = true)
    (h : Grows g total ((g.production r).manner.bodyMode mode) (.once (g.production r).body)
      (text ++ rest) children rest)
    (hchildren : ∀ child ∈ children, IsGrown g child) : IsGrown g (.node r start text children)

omit [g.HasBlanks] in
/-- The children of a grown tree are grown. -/
theorem IsGrown.children {tree : ParseTree R} (h : IsGrown g tree) :
    ∀ child ∈ tree.children, IsGrown g child := by
  cases h with
  | node _ _ hchildren => exact hchildren

omit [g.HasBlanks] in
/-- A run for the text of a node whose rule fixes where blanks stand. -/
theorem IsGrown.runs {r : R} {start : Nat} {text : List Char} {children : List (ParseTree R)}
    (h : IsGrown g (.node r start text children)) (mode : Mode)
    (hmode : ∀ caller, (g.production r).manner.bodyMode caller = mode) :
    ∃ rest, Runs g mode (.once (g.production r).body) (text ++ rest)
      (some (g.outlines children, rest)) := by
  cases h with
  | node _ hgrows _ =>
    have hrun := hgrows.runs
    rw [hmode] at hrun
    exact ⟨_, hrun⟩

omit [g.HasBlanks] in
/-- Whatever a match leaves is grown. -/
theorem Grows.isGrown (h : Grows g total mode task cs trees rest) :
    ∀ tree ∈ trees, IsGrown g tree := by
  induction h with
  | nothing | char | text | word | star_stop | again_stop | notAhead | ahead => exact nofun
  | rule hcs hbody ih =>
    intro tree htree
    unfold Grammar.grown at htree
    split at htree
    · rename_i hvisible
      rw [List.mem_singleton.mp htree]
      exact .node hvisible (hcs ▸ hbody) ih
    · exact ih tree htree
  | choice_left _ ih | choice_right _ _ ih => exact ih
  | seq _ _ ih ih' | star _ _ ih ih' | again _ _ ih ih' =>
    exact fun tree htree => (List.mem_append.mp htree).elim (ih tree) (ih' tree)

/-- What a parse leaves has grown. -/
theorem Grammar.grows_of_parse {reads : R → Bool} {rank : R → Nat} (hg : g.IsGuarded reads rank)
    {r : R} (h : g.parse r cs = .ok trees) :
    ∃ rest, Grows g cs.length .words (.once (.rule r)) cs trees rest := by
  have hcomes := matchRule_comes (g := g) ((cs.length + 2) * g.ruleCount) r .words ⟨cs, 0, 0⟩
  have hparse := h
  unfold Grammar.parse at h
  split at h
  · rename_i left s hmatched
    rw [hmatched] at hcomes
    obtain ⟨-, -, -, hrun⟩ := hcomes
    obtain ⟨grown, hgrows, -⟩ := hrun.grows cs.length rfl
    have hsame := (hgrows.parse hg).symm.trans hparse
    cases hsame
    exact ⟨s.rest, hgrows⟩
  · cases h
  · cases h

/-- A parse leaves one node of its rule. -/
theorem Grammar.exists_root_of_parse {reads : R → Bool} {rank : R → Nat}
    (hg : g.IsGuarded reads rank) {r : R} (hvisible : (g.production r).manner.isVisible .words = true)
    (h : g.parse r cs = .ok trees) :
    ∃ root, trees = [root] ∧ root.rule = r ∧ IsFormed g root ∧ IsGrown g root := by
  have hformed := isFormed_of_parse h
  obtain ⟨rest, hgrows⟩ := g.grows_of_parse hg h
  have hrules := hgrows.areLeft.1.of_visible hvisible
  obtain ⟨root, rfl, hrule⟩ := eq_singleton_of_map_rule hrules
  exact ⟨root, rfl, hrule, hformed root List.mem_cons_self, hgrows.isGrown root List.mem_cons_self⟩

end RdfStore.Peg
