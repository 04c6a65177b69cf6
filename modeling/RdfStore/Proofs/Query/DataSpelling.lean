import RdfStore.Proofs.Peg.Prospect
import RdfStore.Proofs.Query.Guarded
import RdfStore.Proofs.Query.SameQuery
import RdfStore.Proofs.Query.SoundParts

/-!
# Two spellings of inline data

Inline data for one variable is written as the variable with its values, or as a table of one column
with a row for each value. Both say the same. Where the text before a block settles how the block is
read, the two spellings are interchangeable. This is so inside groups at any depth, and behind a
slice. Directly behind a sort key they are not interchangeable, because the keyword and the
parenthesis of a table are taken for the call of a function there.
-/

set_option autoImplicit false

namespace RdfStore.Query

open RdfStore.Peg RdfStore.Syntax RdfStore.Text
open RdfStore.Turtle (wordsOf wordsOf_cons wordsOf_blank isWordStart)

/-! ## Values -/

/-- The rules of tokens. -/
def isTerminal (rule : Symbol) : Bool := rule.terminal?.isSome

/-- The rules of tokens call only each other. -/
theorem isClosed_isTerminal : grammar.IsClosed isTerminal := by
  intro rule hrule
  cases rule with
  | terminal t => cases t <;> rfl
  | _ => cases hrule

/-- The parts of tokens and of literals are tokens. -/
theorem isTerminal_part {node : Node} (h : IsFormed grammar node)
    (hrule : isTerminal node.rule = true ∨ node.rule = .literal) :
    ∀ part ∈ node.children, isTerminal part.rule = true := by
  cases h with
  | @node rule _ _ children mode _ hleaves _ =>
    intro part hpart
    have hcalls : (grammar.production rule).body.callsOnly isTerminal = true := by
      rcases hrule with hrule | hrule
      · exact isClosed_isTerminal rule hrule
      · obtain rfl : rule = .literal := hrule
        rfl
    exact Leaves.isShared isClosed_isTerminal hleaves hcalls _ (List.mem_map_of_mem hpart)

section Outlines

variable {node node' : Node}

/-- Nodes with the same outline are of one rule. -/
theorem rule_eq_of_outline (h : grammar.outline node = grammar.outline node') :
    node.rule = node'.rule := by
  obtain ⟨rule, start, text, children⟩ := node
  obtain ⟨_, _, _, rfl, -, -⟩ := Grammar.eq_of_outline h.symm
  rfl

/-- Nodes with the same outline have children with the same outlines. -/
theorem outlines_children (h : grammar.outline node = grammar.outline node') :
    grammar.outlines node.children = grammar.outlines node'.children := by
  obtain ⟨rule, start, text, children⟩ := node
  obtain ⟨_, _, _, rfl, hchildren, -⟩ := Grammar.eq_of_outline h.symm
  exact hchildren.symm

/-- Nodes with the same outline have the same text, unless their rule is made of words. -/
theorem text_eq_of_outline (h : grammar.outline node = grammar.outline node')
    (hwords : (grammar.production node.rule).manner ≠ .words) : node.text = node'.text := by
  obtain ⟨rule, start, text, children⟩ := node
  obtain ⟨_, _, _, rfl, -, htext⟩ := Grammar.eq_of_outline h.symm
  change (grammar.production rule).manner ≠ .words at hwords
  rw [Grammar.outlineText, Grammar.outlineText, if_neg hwords, if_neg hwords] at htext
  exact htext.symm

/-- Nodes with the same outlines in a row have the same outlines one by one. -/
theorem forall₂_of_outlines {nodes nodes' : List Node}
    (h : grammar.outlines nodes = grammar.outlines nodes') :
    List.Forall₂ (fun node node' : Node => grammar.outline node = grammar.outline node')
      nodes nodes' := by
  induction nodes generalizing nodes' with
  | nil =>
    rw [Grammar.eq_nil_of_outlines h.symm]
    exact .nil
  | cons node rest ih =>
    obtain ⟨node', rest', rfl, hnode, hrest⟩ := Grammar.eq_cons_of_outlines h.symm
    exact .cons hnode.symm (ih hrest.symm)

/-- No token is made of words. -/
theorem manner_of_isTerminal {rule : Symbol} (h : isTerminal rule = true) :
    (grammar.production rule).manner ≠ .words := by
  cases rule with
  | terminal t => exact manner_ne_words Symbol.terminal t
  | _ => cases h

/-- Nodes of the same token are the same token. -/
theorem sameToken_of_outlines (hformed : IsFormed grammar node)
    (hrule : isTerminal node.rule = true) (h : grammar.outline node = grammar.outline node') :
    SameToken Symbol.terminal? Symbol.terminal? node node' := by
  refine ⟨congrArg Symbol.terminal? (rule_eq_of_outline h).symm,
    (text_eq_of_outline h (manner_of_isTerminal hrule)).symm, ?_⟩
  have hparts := isTerminal_part hformed (.inl hrule)
  have hsame := forall₂_of_outlines (outlines_children h)
  generalize node.children = children at hparts hsame
  generalize node'.children = children' at hsame
  cases hsame with
  | nil => rfl
  | cons hpart _ =>
    exact (text_eq_of_outline hpart (manner_of_isTerminal (hparts _ List.mem_cons_self))).symm

/-- Values with the same outline are the same. -/
theorem readDatum_of_outline (scope : IriScope) (hformed : IsFormed grammar node)
    (h : grammar.outline node = grammar.outline node') :
    Agree Eq (readDatum scope node) (readDatum scope node') := by
  have hrule := rule_eq_of_outline h
  have hterm : Agree Eq (readTerm scope node) (readTerm scope node') := by
    refine readTerm_agree scope hrule (fun hboolean => ?_) (fun t ht => ?_) fun hliteral => ?_
    · exact text_eq_of_outline h (hboolean ▸ nofun)
    · exact sameToken_of_outlines hformed (ht ▸ rfl) h
    · have hparts := isTerminal_part hformed (.inr hliteral)
      have hsame := forall₂_of_outlines (outlines_children h)
      have hall := (List.forall₂_and_left _ _).mpr
        ⟨hformed.children, (List.forall₂_and_left _ _).mpr ⟨hparts, hsame⟩⟩
      exact hall.imp fun _ _ hpart => sameToken_of_outlines hpart.1 hpart.2.1 hpart.2.2
  unfold readDatum
  rw [← hrule]
  split
  · exact agree_pure rfl
  · exact hterm.map _

end Outlines

/-! ## Blocks of one column -/

/-- The outline of a block for one variable. -/
def columnOutline (name : List Char) (values : List (Outline Symbol)) : Outline Symbol :=
  .node .singleColumn [] (.node .var name [] :: values)

/-- The outline of a table of one column. -/
def tableOutline (name : List Char) (values : List (Outline Symbol)) : Outline Symbol :=
  .node .table [] (.node .var name [] :: values.map fun value => .node .tableRow [] [value])

/-- A value and the row that holds the same value. -/
def IsRowOf (value row : Node) : Prop :=
  IsFormed grammar value ∧ ∃ start text value', row = .node .tableRow start text [value'] ∧
    grammar.outline value = grammar.outline value'

/-- The rows of a table of one column hold its values. -/
theorem isRowOf_of_outlines {nodes rows : List Node} {values : List (Outline Symbol)}
    (hformed : ∀ node ∈ nodes, IsFormed grammar node) (h : grammar.outlines nodes = values)
    (h' : grammar.outlines rows = values.map fun value => .node .tableRow [] [value]) :
    List.Forall₂ IsRowOf nodes rows := by
  induction nodes generalizing rows values with
  | nil =>
    subst h
    rw [Grammar.eq_nil_of_outlines h']
    exact .nil
  | cons node rest ih =>
    subst h
    obtain ⟨row, others, rfl, hrow, hothers⟩ := Grammar.eq_cons_of_outlines h'
    obtain ⟨start, text, cells, rfl, hcells, -⟩ := Grammar.eq_of_outline hrow
    obtain ⟨cell, rfl, hcell⟩ := Grammar.eq_singleton_of_outlines hcells
    refine .cons ⟨hformed _ List.mem_cons_self, start, text, cell, rfl, hcell.symm⟩ ?_
    exact ih (fun n hn => hformed n (List.mem_cons_of_mem _ hn)) rfl hothers

/-- The rows of a table are no variables. -/
theorem rule_of_isRowOf {nodes rows : List Node} (h : List.Forall₂ IsRowOf nodes rows) :
    ∀ row ∈ rows, row.rule ≠ .var := by
  induction h with
  | nil => exact fun _ hrow => absurd hrow List.not_mem_nil
  | cons hfirst _ ih =>
    obtain ⟨-, _, _, _, rfl, -⟩ := hfirst
    intro row hrow
    rcases List.mem_cons.mp hrow with rfl | hrow
    · exact nofun
    · exact ih row hrow

/-- A row of one value is read as the value is. -/
theorem readRow_of_isRowOf (scope : IriScope) (name : String) {value row : Node}
    (h : IsRowOf value row) :
    Agree Eq (do return [← readDatum scope value]) (readRow scope [name] row) := by
  obtain ⟨hformed, start, text, value', rfl, houtline⟩ := h
  unfold readRow
  dsimp only [ParseTree.children]
  rw [List.mapM_cons, List.mapM_nil, bind_assoc]
  exact (readDatum_of_outline scope hformed houtline).then fun _ => agree_pure rfl

/-- A variable and nodes that are none are told apart. -/
theorem of_ne_var {start : Nat} {text : List Char} {parts nodes : List Node}
    (h : ∀ node ∈ nodes, node.rule ≠ .var) :
    namesOf (.node .var start text parts :: nodes) = [String.ofList (text.drop 1)] ∧
      nonVariables (.node .var start text parts :: nodes) = nodes := by
  have hnone : namesOf nodes = [] := by
    refine List.map_eq_nil_iff.mpr (List.filter_eq_nil_iff.mpr fun node hnode => ?_)
    exact fun hvar => h node hnode (eq_of_beq hvar)
  have hall : nonVariables nodes = nodes :=
    List.filter_eq_self.mpr fun node hnode => bne_iff_ne.mpr (h node hnode)
  exact ⟨congrArg (_ :: ·) hnone, hall⟩

/-- The two blocks say the same. -/
theorem sameBlock_of_outlines {block block' : Node} {name : List Char}
    {values : List (Outline Symbol)} (hformed : IsFormed grammar block)
    (h : grammar.outline block = columnOutline name values)
    (h' : grammar.outline block' = tableOutline name values) : SameBlock block block' := by
  obtain ⟨start, text, children, rfl, hchildren, -⟩ := Grammar.eq_of_outline h
  obtain ⟨start', text', children', rfl, hchildren', -⟩ := Grammar.eq_of_outline h'
  have hlength := length_namesOf_of_singleColumn hformed
  have hformed : ∀ child ∈ children, IsFormed grammar child := hformed.children
  obtain ⟨var, items, rfl, hvar, hitems⟩ := Grammar.eq_cons_of_outlines hchildren
  obtain ⟨var', rows, rfl, hvar', hrows⟩ := Grammar.eq_cons_of_outlines hchildren'
  obtain ⟨place, written, parts, rfl, -, hname⟩ := Grammar.eq_of_outline hvar
  obtain ⟨place', written', parts', rfl, -, hname'⟩ := Grammar.eq_of_outline hvar'
  obtain rfl : written = written' := hname.trans hname'.symm
  -- the values are no variables, since a block has one name, and neither are the rows
  have hnone : namesOf items = [] := List.length_eq_zero_iff.mp (Nat.succ.inj hlength)
  have hitemRules : ∀ item ∈ items, item.rule ≠ .var := fun item hitem hrule =>
    List.filter_eq_nil_iff.mp (List.map_eq_nil_iff.mp hnone) item hitem (beq_iff_eq.mpr hrule)
  have hrowOf := isRowOf_of_outlines (fun n hn => hformed n (List.mem_cons_of_mem _ hn)) hitems
    hrows
  obtain ⟨hnames, hvalues⟩ := @of_ne_var place written parts _ hitemRules
  obtain ⟨hnames', hvalues'⟩ := @of_ne_var place' written parts' _ (rule_of_isRowOf hrowOf)
  intro scope
  simp only [readDataBlock, ParseTree.children, ParseTree.rule, hnames, hvalues, hnames', hvalues',
    if_true, reduceCtorEq, if_false]
  exact (agree_mapM hrowOf fun _ _ => readRow_of_isRowOf scope _).then fun _ => agree_pure rfl

/-! ## Blocks in a text -/

/-- What is known of a query up to the keyword of a block of inline data, if the text goes on after
the block with the given characters. The block starts with a variable or a parenthesis. -/
def dataCut (after : List Char) : Cut Symbol :=
  ⟨['?', '$', '('], "VALUES ".toList, isData, enclosesData, after⟩

/-- The two spellings of a block before the rest of a text: a variable and its values, and a table
of one column with the same name and a row for each of the values. -/
structure AreSpellings (short long after : List Char) (name : List Char)
    (values : List (Outline Symbol)) : Prop where
  short : Reads grammar .words (.rule .singleColumn) (short ++ after) [columnOutline name values]
    after
  long : Reads grammar .words (.rule .table) (long ++ after) [tableOutline name values] after

/-- Characters that do not go on with blanks or a comment do not whatever follows them. -/
theorem blankLengthFrom_append {inComment : Bool} {seen : List Char} {d : Char}
    (h : blankLengthFrom inComment (seen ++ [d]) = blankLengthFrom inComment seen)
    (more : List Char) :
    blankLengthFrom inComment (seen ++ d :: more) = blankLengthFrom inComment seen := by
  induction seen generalizing inComment with
  | nil =>
    cases inComment with
    | true =>
      exfalso
      revert h
      simp only [List.nil_append, blankLengthFrom]
      split <;> simp
    | false =>
      revert h
      simp only [List.nil_append, blankLengthFrom]
      split
      · simp
      · split <;> simp
  | cons c rest ih =>
    cases inComment with
    | true =>
      revert h
      simp only [List.cons_append, blankLengthFrom]
      split
      · exact fun h => congrArg (· + 1) (ih (Nat.succ.inj h))
      · exact fun h => congrArg (· + 1) (ih (Nat.succ.inj h))
    | false =>
      revert h
      simp only [List.cons_append, blankLengthFrom]
      split
      · exact fun h => congrArg (· + 1) (ih (Nat.succ.inj h))
      · split
        · exact fun h => congrArg (· + 1) (ih (Nat.succ.inj h))
        · exact fun _ => rfl

/-- A block can stand behind its keyword. -/
theorem fits_dataCut {after more : List Char} {d : Char} (hd : d ∈ ['?', '$', '(']) :
    (dataCut after).Fits grammar (d :: more) where
  head := ⟨d, hd, more, rfl⟩
  blanks _ h := blankLengthFrom_append (h d hd) more

/-- Rules that call those of inline data, directly or not, leave nodes around it. -/
theorem enclosesData_of_calls (r : Symbol) : ∀ q ∈ (grammar.production r).body.calls,
    isData q = true ∨ enclosesData q = true → enclosesData r = true := by
  have hall : ((grammar.production r).body.calls.all fun q =>
      !isData q && !enclosesData q || enclosesData r) = true := by
    cases r with
    | terminal t => cases t <;> rfl
    | memberOp negated | «exists» negated => cases negated <;> rfl
    | _ => rfl
  intro q hq hspans
  have hone := List.all_eq_true.mp hall q hq
  rcases hspans with hdata | hencloses
  · simpa [hdata] using hone
  · simpa [hencloses] using hone

/-- The keyword and a block are read by the rules of inline data. -/
theorem reads_data {r : Symbol} (hr : isData r = true) {c : Char} {more after : List Char}
    {block : Outline Symbol} (hword : isWordStart c = true)
    (h : Reads grammar .words Symbol.dataBlock (c :: more) [block] after) :
    Reads grammar .words (.rule r) ("VALUES ".toList ++ c :: more) [.node r [] [block]] after := by
  have hkeyword : Reads grammar .words (.keyword "VALUES")
      ("VALUES".toList ++ ' ' :: c :: more) [] (' ' :: c :: more) := reads_word (by decide) _
  have hskip : grammar.skip .words (' ' :: c :: more) = c :: more :=
    (wordsOf_blank rfl _).trans (wordsOf_cons hword more)
  have hbody := hkeyword.seq (hskip.symm ▸ h)
  unfold isData at hr
  split at hr
  · exact Reads.rule_words rfl rfl hbody
  · exact Reads.rule_words rfl rfl hbody
  · cases hr

/-- A block for one variable starts with the variable. -/
theorem start_of_singleColumn {cs : List Char} {result : List (Outline Symbol) × List Char}
    (h : Runs grammar .words (.once (.rule .singleColumn)) cs (some result)) :
    ∃ c ∈ ['?', '$'], ∃ more, cs = c :: more := by
  cases h with
  | rule _ h =>
    cases h with
    | seq h _ =>
      cases h with
      | rule _ h =>
        cases h with
        | seq h _ =>
          cases h with
          | char hc =>
            simp only [Bool.or_eq_true, beq_iff_eq] at hc
            exact ⟨_, by simpa using hc, _, rfl⟩

/-- A table starts with a parenthesis. -/
theorem start_of_table {cs : List Char} {result : List (Outline Symbol) × List Char}
    (h : Runs grammar .words (.once (.rule .table)) cs (some result)) :
    ∃ more, cs = '(' :: more := by
  cases h with
  | rule _ h =>
    cases h with
    | seq h _ =>
      cases h with
      | char hc =>
        obtain rfl := eq_of_beq hc
        exact ⟨_, rfl⟩

/-- Both spellings of a block can stand behind the keyword, and its rules leave nodes that say the
same. -/
theorem AreSpellings.pairs {short long after name : List Char} {values : List (Outline Symbol)}
    (h : AreSpellings short long after name values) (total total' : Nat) :
    (dataCut after).Pairs grammar SameData total total' (short ++ after) (long ++ after) := by
  have hshort := h.short
  have hlong := h.long
  obtain ⟨c, hc, more, hstart⟩ := start_of_singleColumn hshort.runs
  obtain ⟨more', hstart'⟩ := start_of_table hlong.runs
  rw [hstart] at hshort ⊢
  rw [hstart'] at hlong ⊢
  refine ⟨fits_dataCut (by simp at hc; rcases hc with rfl | rfl <;> simp), fits_dataCut (by simp),
    fun r q hq hspans => ?_, fun r hr => ?_⟩
  · exact enclosesData_of_calls r q hq (Bool.or_eq_true_iff.mp hspans)
  · have hdata := reads_data hr (by simp at hc; rcases hc with rfl | rfl <;> rfl)
      hshort.choice_left
    have hdata' := reads_data hr rfl (Reads.choice_right (refuses_of_head rfl rfl more') hlong)
    obtain ⟨trees, hgrows, htrees⟩ := hdata.runs.grows total rfl
    obtain ⟨trees', hgrows', htrees'⟩ := hdata'.runs.grows total' rfl
    obtain ⟨tree, rfl, htree⟩ := Grammar.eq_singleton_of_outlines htrees
    obtain ⟨tree', rfl, htree'⟩ := Grammar.eq_singleton_of_outlines htrees'
    refine ⟨tree, tree', ?_, hgrows, hgrows'⟩
    have hformed := (hgrows.areLeft.2 tree List.mem_cons_self).children
    obtain ⟨_, _, _, rfl, hblocks, -⟩ := Grammar.eq_of_outline htree
    obtain ⟨_, _, _, rfl, hblocks', -⟩ := Grammar.eq_of_outline htree'
    obtain ⟨block, rfl, hblock⟩ := Grammar.eq_singleton_of_outlines hblocks
    obtain ⟨block', rfl, hblock'⟩ := Grammar.eq_singleton_of_outlines hblocks'
    exact .node hr (sameBlock_of_outlines (hformed block List.mem_cons_self) hblock hblock')

/-! ## Queries with a block -/

/-- The text before a block of inline data settles how it is read: from that text, the keyword and
the rest behind the block one can tell whether the grammar matches, and around which node of inline
data, whatever the block is. -/
def Settles (before after : String) : Prop :=
  ∃ fuel, (dataCut after.toList).rule grammar fuel .query .words
    ⟨before.toList ++ "VALUES ".toList, true⟩ ≠ .unclear

/-- Texts that are the same but for the spelling of a block are both refused by the grammar, or
their trees are the same but for that. -/
theorem parse_spellings {before short long after name : List Char}
    {values : List (Outline Symbol)} (h : AreSpellings short long after name values) {fuel : Nat}
    (hfuel : (dataCut after).rule grammar fuel .query .words
      ⟨before ++ "VALUES ".toList, true⟩ ≠ .unclear) :
    (∃ blame blame',
        parseQuery (before ++ "VALUES ".toList ++ (short ++ after)) = .error blame ∧
        parseQuery (before ++ "VALUES ".toList ++ (long ++ after)) = .error blame') ∨
      ∃ nodes nodes', parseQuery (before ++ "VALUES ".toList ++ (short ++ after)) = .ok nodes ∧
        parseQuery (before ++ "VALUES ".toList ++ (long ++ after)) = .ok nodes' ∧
        List.Forall₂ (fun node node' => node.rule = .query ∧ SameNode node node') nodes nodes' := by
  have hholds := Cut.rule_holds (h.pairs (before ++ "VALUES ".toList ++ (short ++ after)).length
    (before ++ "VALUES ".toList ++ (long ++ after)).length) fuel .query .words
    ⟨before ++ "VALUES ".toList, true⟩
  generalize (dataCut after).rule grammar fuel .query .words _ = sight at hfuel hholds
  cases sight with
  | unclear => exact absurd rfl hfuel
  | refuses =>
    obtain ⟨blame, hblame⟩ := hholds.1.refuses.parse isGuarded_grammar
    obtain ⟨blame', hblame'⟩ := hholds.2.refuses.parse isGuarded_grammar
    exact .inl ⟨blame, blame', hblame, hblame'⟩
  | reads rest =>
    obtain ⟨nodes, nodes', hgrows, hgrows', halike⟩ := hholds
    refine .inr ⟨nodes, nodes', hgrows.parse isGuarded_grammar, hgrows'.parse isGuarded_grammar, ?_⟩
    obtain ⟨hleaves, hformed⟩ := hgrows.areLeft
    have hrules : ∀ node ∈ nodes, node.rule = .query := by
      intro node hnode
      have hmem := List.mem_map_of_mem (f := ParseTree.rule) hnode
      rw [Leaves.of_visible hleaves rfl] at hmem
      exact List.mem_singleton.mp hmem
    have hsame : List.Forall₂ (Same enclosesData SameData) nodes nodes' := by
      rcases halike with ⟨-, -, hmoved⟩ | ⟨-, -, -, hsame⟩
      · exact same_of_unplacedAll hmoved
      · exact hsame
    exact (List.forall₂_and_left _ _).mpr ⟨hrules, (List.forall₂_and_left _ _).mpr ⟨hformed, hsame⟩⟩

/-- A text that the grammar refuses is no query. -/
theorem toOption_read_error {text : String} {blame : Nat}
    (h : parseQuery text.toList = .error blame) : (read text).toOption = none := by
  unfold read
  dsimp only
  rw [h]
  rfl

/-- A text that the grammar matches is the query that the walk makes of its nodes, if any. -/
theorem toOption_read_ok {text : String} {nodes : List Node}
    (h : parseQuery text.toList = .ok nodes) :
    (read text).toOption =
      ((readParts (nodes.flatMap ParseTree.children)).run.run 0).1.toOption := by
  unfold read
  dsimp only
  rw [h]
  dsimp only
  rcases (readParts (nodes.flatMap ParseTree.children)).run.run 0 with ⟨result, k⟩
  cases result <;> rfl

/-- The two spellings of a block are interchangeable where the text before it settles how it is
read: with either of them the text is the same query, or both texts are refused. -/
theorem toOption_read_spellings {before short long after : String} {name : List Char}
    {values : List (Outline Symbol)}
    (h : AreSpellings short.toList long.toList after.toList name values)
    (hsettles : Settles before after) :
    (read (before ++ "VALUES " ++ short ++ after)).toOption =
      (read (before ++ "VALUES " ++ long ++ after)).toOption := by
  obtain ⟨fuel, hfuel⟩ := hsettles
  have htext : ∀ block : String, (before ++ "VALUES " ++ block ++ after).toList =
      before.toList ++ "VALUES ".toList ++ (block.toList ++ after.toList) := by
    intro block
    simp only [String.toList_append, List.append_assoc]
  rcases parse_spellings h hfuel with
    ⟨blame, blame', hparse, hparse'⟩ | ⟨nodes, nodes', hparse, hparse', hsame⟩
  · rw [← htext] at hparse hparse'
    rw [toOption_read_error hparse, toOption_read_error hparse']
  · rw [← htext] at hparse hparse'
    rw [toOption_read_ok hparse, toOption_read_ok hparse']
    have hparts : List.Forall₂ SameNode (nodes.flatMap ParseTree.children)
        (nodes'.flatMap ParseTree.children) :=
      List.rel_flatMap hsame fun _ _ hnode => hnode.2.children (hnode.1 ▸ rfl)
    have hresults := (readParts_same hparts 0).2
    generalize ((readParts (nodes.flatMap ParseTree.children)).run.run 0).1 = result at hresults ⊢
    generalize ((readParts (nodes'.flatMap ParseTree.children)).run.run 0).1 = result' at hresults ⊢
    cases result <;> cases result' <;>
      first | rfl | exact hresults.elim | exact congrArg some hresults

set_option maxRecDepth 4000 in
/-- Two numbers for `?x` in a branch of a union. -/
theorem toOption_read_spellings_union :
    AreSpellings "?x \x7b 1 -2 \x7d".toList "(?x) \x7b (1) (-2) \x7d".toList " \x7d \x7d".toList
      "?x".toList
      [.node (.terminal .integer) ['1'] [], .node (.terminal .integer) ['-', '2'] []] ∧
    Settles "ASK \x7b \x7b ?x ?p ?o \x7d UNION \x7b " " \x7d \x7d" ∧
    (read ("ASK \x7b \x7b ?x ?p ?o \x7d UNION \x7b " ++ "VALUES " ++
      "?x \x7b 1 -2 \x7d" ++ " \x7d \x7d")).toOption =
      (read ("ASK \x7b \x7b ?x ?p ?o \x7d UNION \x7b " ++ "VALUES " ++
        "(?x) \x7b (1) (-2) \x7d" ++ " \x7d \x7d")).toOption := by
  have hcolumn : matchExpr grammar (matchRule grammar 9) 9 .words (.rule .singleColumn)
      ⟨"?x \x7b 1 -2 \x7d \x7d \x7d".toList, 0, 0⟩ =
      .matched [.node .singleColumn 0 "?x \x7b 1 -2 \x7d".toList [.node .var 0 "?x".toList [],
        .node (.terminal .integer) 5 ['1'] [], .node (.terminal .integer) 7 ['-', '2'] []]]
        ⟨" \x7d \x7d".toList, 11, 10⟩ := by rfl
  have htable : matchExpr grammar (matchRule grammar 9) 9 .words (.rule .table)
      ⟨"(?x) \x7b (1) (-2) \x7d \x7d \x7d".toList, 0, 0⟩ =
      .matched [.node .table 0 "(?x) \x7b (1) (-2) \x7d".toList [.node .var 1 "?x".toList [],
        .node .tableRow 7 "(1)".toList [.node (.terminal .integer) 8 ['1'] []],
        .node .tableRow 11 "(-2)".toList [.node (.terminal .integer) 12 ['-', '2'] []]]]
        ⟨" \x7d \x7d".toList, 17, 16⟩ := by rfl
  have h : AreSpellings "?x \x7b 1 -2 \x7d".toList "(?x) \x7b (1) (-2) \x7d".toList
      " \x7d \x7d".toList "?x".toList
      [.node (.terminal .integer) ['1'] [], .node (.terminal .integer) ['-', '2'] []] :=
    ⟨reads_of_matched hcolumn, reads_of_matched htable⟩
  have hsettles : Settles "ASK \x7b \x7b ?x ?p ?o \x7d UNION \x7b " " \x7d \x7d" :=
    ⟨40, by decide +kernel⟩
  exact ⟨h, hsettles, toOption_read_spellings h hsettles⟩

/-- Directly behind a sort key only one of the spellings is read. -/
theorem toOption_read_behindKey :
    AreSpellings "?x \x7b 1 \x7d".toList "(?x) \x7b (1) \x7d".toList [] "?x".toList
      [.node (.terminal .integer) ['1'] []] ∧
    (read ("SELECT ?y WHERE \x7b ?y ?p ?o \x7d ORDER BY ?y " ++ "VALUES " ++ "?x \x7b 1 \x7d" ++
      "")).toOption ≠
      (read ("SELECT ?y WHERE \x7b ?y ?p ?o \x7d ORDER BY ?y " ++ "VALUES " ++
        "(?x) \x7b (1) \x7d" ++ "")).toOption := by
  have hcolumn : matchExpr grammar (matchRule grammar 9) 9 .words (.rule .singleColumn)
      ⟨"?x \x7b 1 \x7d".toList, 0, 0⟩ =
      .matched [.node .singleColumn 0 "?x \x7b 1 \x7d".toList [.node .var 0 "?x".toList [],
        .node (.terminal .integer) 5 ['1'] []]] ⟨[], 8, 7⟩ := by rfl
  have htable : matchExpr grammar (matchRule grammar 9) 9 .words (.rule .table)
      ⟨"(?x) \x7b (1) \x7d".toList, 0, 0⟩ =
      .matched [.node .table 0 "(?x) \x7b (1) \x7d".toList [.node .var 1 "?x".toList [],
        .node .tableRow 7 "(1)".toList [.node (.terminal .integer) 8 ['1'] []]]] ⟨[], 12, 11⟩ := by
    rfl
  refine ⟨⟨reads_of_matched hcolumn, reads_of_matched htable⟩, fun hsame => ?_⟩
  have haccepted := congrArg Option.isSome hsame
  have hshort : (read ("SELECT ?y WHERE \x7b ?y ?p ?o \x7d ORDER BY ?y " ++ "VALUES " ++
      "?x \x7b 1 \x7d" ++ "")).toOption.isSome = true := by decide +kernel
  have hlong : (read ("SELECT ?y WHERE \x7b ?y ?p ?o \x7d ORDER BY ?y " ++ "VALUES " ++
      "(?x) \x7b (1) \x7d" ++ "")).toOption.isSome = false := by decide +kernel
  rw [hshort, hlong] at haccepted
  cases haccepted

/-! ## Where a block is settled -/

/-- The text before a block settles how it is read, whatever follows the block. -/
def SettlesAlone (before : String) : Prop :=
  ∃ fuel, ((dataCut []).ruleProspect grammar fuel .query .words
    ⟨before.toList ++ "VALUES ".toList, true⟩).isSome = true

/-- What is known before a block does not depend on the text after it. -/
theorem goesOn_dataCut (after : List Char) :
    (dataCut []).GoesOn (dataCut after) grammar ⟨[], true⟩ where
  head _ hany := if_neg (Bool.eq_false_iff.mp hany)
  blanks seen hall := by
    rw [List.append_nil]
    exact ⟨rfl, fun _ => hall⟩
  fills r hr := ⟨.reads ⟨after, false⟩, rfl, Cut.sees_fills hr⟩
  word fuel r v p hr hword _ := by
    obtain ⟨seen, isCut⟩ := v
    cases isCut with
    | false => cases hword
    | true =>
      obtain ⟨hseen, -⟩ := View.mk.inj hword
      rw [List.append_nil] at hseen
      exact ⟨congrArg (View.mk · true) hseen, hr⟩

/-- A text settles how a block is read if a front of it has a prospect and goes on to the block. -/
theorem settles_of_goesOn {before after : String} {c : Cut Symbol} {front text : List Char}
    {fuel : Nat} (h : (c.ruleProspect grammar fuel .query .words ⟨front, true⟩).isSome = true)
    (hgoes : c.GoesOn (dataCut after.toList) grammar ⟨text, true⟩)
    (hbefore : before.toList ++ "VALUES ".toList = front ++ text) : Settles before after := by
  obtain ⟨p, hp⟩ := Option.isSome_iff_exists.mp h
  obtain ⟨s, hs, least, hsees⟩ := Cut.rule_meets isGuarded_grammar hgoes hp
  refine ⟨least, fun hunclear => ?_⟩
  rw [hbefore] at hunclear
  obtain rfl : .unclear = s := hunclear.symm.trans (hsees least (Nat.le_refl _))
  exact hs

/-- A text that settles alone how a block is read settles it before every rest. -/
theorem SettlesAlone.settles {before : String} (h : SettlesAlone before) (after : String) :
    Settles before after := by
  obtain ⟨fuel, h⟩ := h
  exact settles_of_goesOn h (goesOn_dataCut after.toList) (List.append_nil _).symm

/-- Behind the end of a slice a block is settled. -/
theorem settles_sliced (after : String) :
    Settles "SELECT * \x7b ?s ?p ?o \x7d ORDER BY ?s LIMIT 10 OFFSET 20 " after :=
  SettlesAlone.settles ⟨40, by decide +kernel⟩ after

/-- What is known of a text up to the brace of a group. The group may go on with a term or a
variable, with another group, or with a keyword. -/
def groupCut : Cut Symbol where
  heads := "?$<_:[(\x7bBFGMOSV".toList
  word := "\x7b ".toList
  fills
    | .group => true
    | _ => false
  encloses _ := false
  after := []

/-- A text goes on in a group, up to a cut inside the group: the rule of groups does not end before
the cut. -/
structure StaysInside (c : Cut Symbol) (text : List Char) : Prop where
  head : text.head?.any groupCut.heads.contains = true
  opened : ∃ fuel, (c.ruleProspect grammar fuel .group .words
    ⟨"\x7b ".toList ++ text, true⟩).any (·.ends.isEmpty) = true

/-- A group up to a block is refused, or read across the block, if the text goes on behind the block
with the given characters. -/
structure LeadsToBlock (after text : List Char) : Prop where
  head : ∃ d ∈ groupCut.heads, ∃ more, text = d :: more
  crosses : ∃ s, s.IsBeyond ∧
    (dataCut after).Sees grammar .words (.rule .group) ⟨"\x7b ".toList ++ text, true⟩ s

/-- What a group may go on with is no part of the keyword of a block, unless it is the keyword or its
last letter; where one of these is expected the keyword is not read yet. -/
theorem strip_keyword {seen : List Char} {d : Char} {more : List Char}
    (h : seen ++ d :: more = "VALUES ".toList) (hd : d ∈ groupCut.heads) :
    groupCut.strip true "VALUES".toList ⟨seen, true⟩ = .unclear := by
  have hall : ∀ count < 8, ("VALUES ".toList.drop count).head?.any groupCut.heads.contains = true →
      groupCut.strip true "VALUES".toList ⟨"VALUES ".toList.take count, true⟩ = .unclear := by
    decide
  have hlength : seen.length < 8 := by
    have := congrArg List.length h
    rw [List.length_append, List.length_cons, show "VALUES ".toList.length = 7 by rfl] at this
    omega
  have hfound := hall seen.length hlength
  rw [← h, List.drop_left, List.take_left] at hfound
  exact hfound (List.contains_iff_mem.mpr hd)

/-- Where the keyword of a block is not read yet, the rules of inline data have no prospect. -/
theorem ruleProspect_of_unclear {r : Symbol} (hr : isData r = true) {v : View}
    (h : groupCut.strip true "VALUES".toList v = .unclear) (fuel : Nat) :
    groupCut.ruleProspect grammar fuel r .words v = none := by
  cases fuel with
  | zero => rfl
  | succ fuel =>
    have hbody : groupCut.prospect grammar (groupCut.ruleProspect grammar fuel) fuel .words
        (.seq (.keyword "VALUES") Symbol.dataBlock) v = none := by
      show (Prospect.ofSight (groupCut.strip true "VALUES".toList v)).bind _ = none
      rw [h]
      rfl
    unfold isData at hr
    split at hr
    · exact (if_neg fun hfills => absurd hfills.2.1 (by decide)).trans hbody
    · exact (if_neg fun hfills => absurd hfills.2.1 (by decide)).trans hbody
    · cases hr

/-- A text up to a brace goes on with a group that leads to a block. -/
theorem LeadsToBlock.goesOn {after text : List Char} (h : LeadsToBlock after text) :
    groupCut.GoesOn (dataCut after) grammar ⟨text, true⟩ := by
  obtain ⟨⟨d, hd, more, rfl⟩, hcrosses⟩ := h
  refine ⟨fun isMember hany => ?_, fun seen hall => ⟨?_, fun _ e _ => ?_⟩, fun r hr => ?_,
    fun fuel r v p hr hword hp => ?_⟩
  · exact if_neg (List.any_eq_false.mp hany d hd)
  · exact blankLengthFrom_append (hall d hd) more
  · rw [List.append_assoc]
    exact blankLengthFrom_append (hall d hd) (more ++ [e])
  · obtain rfl : r = .group := by
      unfold groupCut at hr
      dsimp only at hr
      split at hr
      · rfl
      · cases hr
    exact hcrosses
  · obtain ⟨seen, isCut⟩ := v
    cases isCut with
    | false => cases hword
    | true =>
      rw [ruleProspect_of_unclear hr (strip_keyword (View.mk.inj hword).1 hd) fuel] at hp
      cases hp

/-- A text inside a group leads to a block, if it goes on to the block behind its cut. -/
theorem StaysInside.leadsToBlock {c : Cut Symbol} {after opening text : List Char}
    (h : StaysInside c opening) (hgoes : c.GoesOn (dataCut after) grammar ⟨text, true⟩) :
    LeadsToBlock after (opening ++ text) := by
  obtain ⟨hhead, fuel, hopened⟩ := h
  obtain ⟨d, hd, hcontains⟩ := (Option.any_eq_true _ _).mp hhead
  obtain ⟨p, hp, hends⟩ := (Option.any_eq_true _ _).mp hopened
  obtain ⟨s, hs, hsees⟩ := Cut.rule_meets isGuarded_grammar hgoes hp
  obtain ⟨more, rfl⟩ := List.head?_eq_some_iff.mp hd
  refine ⟨⟨d, List.contains_iff_mem.mp hcontains, more ++ text, rfl⟩, s,
    hs.isBeyond (List.isEmpty_iff.mp hends), ?_⟩
  rw [← List.append_assoc]
  exact hsees

/-- Inside groups a block is settled at any depth, whatever follows it: if the text up to the first
brace, the texts from one brace to the next, and the text from the last brace to the block are clear
up to their ends. -/
theorem settles_inside {top last : String} {openings : List String}
    (htop : ∃ fuel, (groupCut.ruleProspect grammar fuel .query .words
      ⟨top.toList, true⟩).isSome = true)
    (hopenings : ∀ opening ∈ openings, StaysInside groupCut opening.toList)
    (hlast : StaysInside (dataCut []) (last.toList ++ "VALUES ".toList)) (after : String) :
    Settles (top ++ String.join openings ++ last) after := by
  have hleads : LeadsToBlock after.toList
      (openings.flatMap String.toList ++ (last.toList ++ "VALUES ".toList)) := by
    induction openings with
    | nil =>
      rw [List.flatMap_nil, List.nil_append, ← List.append_nil (last.toList ++ _)]
      exact hlast.leadsToBlock (goesOn_dataCut after.toList)
    | cons opening rest ih =>
      rw [List.flatMap_cons, List.append_assoc]
      exact (hopenings opening List.mem_cons_self).leadsToBlock
        (ih fun o ho => hopenings o (List.mem_cons_of_mem _ ho)).goesOn
  obtain ⟨fuel, htop⟩ := htop
  refine settles_of_goesOn htop hleads.goesOn ?_
  simp only [String.toList_append, String.toList_join, List.append_assoc]

/-- A block that comes first in groups in one another, plain, optional or taken away, is settled. -/
theorem settles_nested {openings : List String}
    (h : ∀ opening ∈ openings, opening ∈ ["\x7b ", "OPTIONAL \x7b ", "MINUS \x7b "])
    (after : String) : Settles ("ASK \x7b " ++ String.join openings) after := by
  have hstays : ∀ opening ∈ ["\x7b ", "OPTIONAL \x7b ", "MINUS \x7b "],
      opening.toList.head?.any groupCut.heads.contains = true ∧
        (groupCut.ruleProspect grammar 40 .group .words
          ⟨"\x7b ".toList ++ opening.toList, true⟩).any (·.ends.isEmpty) = true := by
    decide +kernel
  have hinside : Settles ("ASK \x7b " ++ String.join openings ++ "") after :=
    settles_inside ⟨40, by decide +kernel⟩
      (fun o ho => ⟨(hstays o (h o ho)).1, 40, (hstays o (h o ho)).2⟩)
      ⟨by decide, 40, by decide +kernel⟩ after
  rwa [String.append_empty] at hinside

end RdfStore.Query
