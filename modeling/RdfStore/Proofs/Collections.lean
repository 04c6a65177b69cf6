import RdfStore.Proofs.Peg.Pieces
import RdfStore.Proofs.Query.Guarded
import RdfStore.Proofs.Query.ReadBlocks
import RdfStore.Proofs.Turtle.Collections
import RdfStore.Proofs.Turtle.Parts
import RdfStore.Proofs.Turtle.Scoping

/-!
# Collections of a text

A collection in a document that is read, or in a pattern or template of a query that is read, is a
list with a new cell for each item: its triples are those of its cells, behind those of its items.
In a document the cells are blank nodes. In a query they are the places of their spots, which no
variable and no label of the text denotes.
-/

set_option autoImplicit false

namespace RdfStore.Turtle

open RdfStore.Peg RdfStore.Syntax

/-- In a document that is read all collections are linked. -/
theorem areLinked_of_read {text : String} {base : Option String} {ts : List Triple}
    (h : read text base = .ok ts) :
    ∃ root ν, parseDocument text.toList = .ok [root] ∧ Function.Injective ν ∧
      saidDocument ν base [root] = .means () ts ∧ AreLinked ν ts [] root := by
  obtain ⟨nodes, s, hparse, hrun, rfl⟩ := exists_run_of_read h
  obtain ⟨ν, hν, hsaid⟩ := exists_meaning hrun
  obtain ⟨root, rfl, hroot, -⟩ := Grammar.exists_root_of_parse isGuarded_grammar rfl hparse
  refine ⟨root, ν, hparse, hν, hsaid, HoldsBehind.holdsIn ?_ fun hmeant => ?_⟩
  · have hstatements := fun node hnode =>
      ((statements_of_parse hparse node hnode).imp_right fun h => h.2)
    have hchildren : statementsOf [root] = root.children := List.append_nil root.children
    exact hchildren ▸ areLinked_of_saidStatements hstatements hsaid
  · rw [hroot] at hmeant
    cases hmeant

end RdfStore.Turtle

namespace RdfStore.Query

open RdfStore.Peg RdfStore.Syntax RdfStore.Text

variable {number : Spot → Nat} {scope : IriScope} {inTemplate : Bool} {ps : List Pattern}
  {place : Path} {spot : Spot} {node : Node} {start : Nat} {text : List Char}
  {children : List Node}

/-! ## Names of hidden places -/

instance : Countable Spot :=
  Function.Injective.countable fun (a b : Spot) (h : Mark.spot a = Mark.spot b) => Mark.spot.inj h

/-- Different labels and anonymous spots have different places. -/
theorem blankPlace_injective (inTemplate : Bool) : Function.Injective (blankPlace inTemplate) := by
  intro label label' h
  cases inTemplate with
  | true => exact Place.blank.inj h
  | false =>
    have hlist := congrArg String.toList (Place.var.inj h)
    rw [String.toList_append, String.toList_append] at hlist
    exact String.toList_inj.mp (List.append_cancel_left hlist)

/-- Different spots are different places. -/
theorem spotPlace_injective (h : Function.Injective number) (inTemplate : Bool) :
    Function.Injective (spotPlace number inTemplate) := by
  intro spot spot' hsame
  have hnames := blankPlace_injective inTemplate hsame
  exact h (numbered_injective (congrArg BlankNode.mk hnames))

/-- A variable is not named like a hidden place. -/
theorem variableName_ne (h : IsGrown grammar (.node .var start text children)) (name : String) :
    String.ofList (text.drop 1) ≠ "_:" ++ name := by
  intro heq
  obtain ⟨rest, hrun⟩ := h.runs .token fun _ => rfl
  obtain ⟨_, _, _, -, hsigil, hrest⟩ := hrun.of_seq_tight (by decide)
  obtain ⟨-, sigil, htext, -⟩ := hsigil.of_char
  obtain ⟨_, _, _, -, hstart, hmore⟩ := hrest.of_seq_tight (by decide)
  obtain ⟨-, c, rfl, -⟩ := hstart.of_char
  obtain ⟨taken, rfl, htaken⟩ := hmore.of_star_char (by decide)
  obtain rfl : text = sigil :: c :: taken := List.append_cancel_right htext
  have hlist := congrArg String.toList heq
  rw [String.toList_ofList, String.toList_append] at hlist
  have hcolon : ':' ∈ taken := by
    obtain ⟨-, hbehind⟩ := List.cons.inj hlist
    rw [hbehind]
    exact List.mem_cons_self
  exact absurd (htaken ':' hcolon) (by decide)

/-- A label does not start like a hidden one. -/
theorem label_ne (h : IsGrown grammar (.node (.terminal .blankNodeLabel) start text children))
    (name : String) : String.ofList (text.drop 2) ≠ "~" ++ name := by
  intro heq
  obtain ⟨rest, hrun⟩ := h.runs .compound fun _ => rfl
  obtain ⟨_, _, _, -, hsign, hlabel⟩ := hrun.of_seq_tight (by decide)
  obtain ⟨-, htext⟩ := hsign.of_text
  obtain ⟨_, _, -, -, hbody⟩ := hlabel.of_rule
  obtain ⟨_, _, mid, -, hstart, hmore⟩ := hbody.of_seq_tight (by decide)
  obtain ⟨-, c, rfl, hmember⟩ := hstart.of_char
  obtain ⟨taken, rfl⟩ := hmore.exists_taken
  rw [← List.cons_append, ← List.append_assoc] at htext
  obtain rfl := List.append_cancel_right htext
  have hlist := congrArg String.toList heq
  rw [String.toList_ofList, String.toList_append] at hlist
  obtain ⟨rfl, -⟩ := List.cons.inj hlist
  exact absurd hmember (by decide)

/-- Only the node of a spot denotes its place. -/
theorem place_of_saidPlace (hnumber : Function.Injective number) (hgrown : IsGrown grammar node)
    (h : saidPlace number scope inTemplate place node = .means (spotPlace number inTemplate spot) ps) :
    spot.place = place := by
  have hterm : ∀ t : Term, Place.term t ≠ spotPlace number inTemplate spot := by
    cases inTemplate <;> exact nofun
  have hspot : ∀ other : Spot, spotPlace number inTemplate other =
      spotPlace number inTemplate spot → spot = other :=
    fun other heq => (spotPlace_injective hnumber inTemplate heq).symm
  obtain ⟨rule, start, text, children⟩ := node
  unfold saidPlace at h
  split at h
  · injection h with hname
    cases inTemplate with
    | true => cases hname
    | false => exact absurd (Place.var.inj hname) (variableName_ne hgrown _)
  · injection h with hname
    exact absurd (blankPlace_injective inTemplate hname) (label_ne hgrown _)
  · injection h with hname
    rw [hspot _ hname]
    rfl
  · injection h with hname
    exact absurd hname (hterm _)
  · obtain ⟨_, us, vs, -, hnode, -⟩ := Said.bind_eq_means h
    injection hnode with hname
    rw [hspot _ hname]
    rfl
  · obtain ⟨items, us, vs, -, hlist, -⟩ := Said.bind_eq_means h
    injection hlist with hname
    unfold Listing.listNode at hname
    split at hname
    · rw [hspot _ hname]
      rfl
    · exact absurd hname (hterm _)
  · rw [← bind_pure_comp] at h
    obtain ⟨t, _, _, -, hplace, -⟩ := Said.bind_eq_means h
    injection hplace with hname
    exact absurd hname (hterm _)

/-! ## Queries -/

/-- No other spot has a place that the node at a place denotes. -/
def IsApart (number : Spot → Nat) (place : Path) (node : Node) : Prop :=
  ∀ scope inTemplate spot ps,
    saidPlace number scope inTemplate place node = .means (spotPlace number inTemplate spot) ps →
      spot.place = place

/-- What the block at a place says is in the query, and in it all collections are linked. -/
def IsLinkedBlock (number : Spot → Nat) (q : Query) (place : Path) (node : Node) : Prop :=
  ∃ scope inTemplate ps, saidBlocks number scope inTemplate place 0 node.children = .means () ps ∧
    q.HasBlock inTemplate ps ∧ AreLinked number inTemplate ps place node

/-- In all blocks of a query that is read all collections are linked, by places of their own. -/
theorem areLinked_of_read {text : String} {q : Query} (h : read text = .ok q) :
    ∃ root number, parseQuery text.toList = .ok [root] ∧
      (∀ inTemplate, Function.Injective (spotPlace number inTemplate)) ∧
      HoldsIn (fun _ => true) (IsApart number) [] root ∧
      HoldsIn isBlock (IsLinkedBlock number q) [] root := by
  obtain ⟨nodes, k, hparse, hrun⟩ := exists_run_of_read h
  obtain ⟨root, rfl, hroot, hformed, hgrown⟩ :=
    Grammar.exists_root_of_parse isGuarded_grammar rfl hparse
  have hchildren : [root].flatMap ParseTree.children = root.children :=
    List.append_nil root.children
  rw [hchildren] at hrun
  obtain ⟨rule, start, chars, children⟩ := root
  obtain rfl : rule = .query := hroot
  obtain ⟨log, hlog, -, hfinds⟩ := readParts_finds hformed [] (.ok q) k List.nodup_nil nofun hrun
  obtain ⟨number, hnumber, hplaces⟩ := exists_numbering hlog.nodup
  have hfollows : FollowsLog number ([] ++ log) := by
    intro i spot hspot
    obtain ⟨hi, rfl⟩ := List.getElem?_eq_some_iff.mp hspot
    exact hplaces i hi
  obtain ⟨scope, hfound⟩ := hfinds q rfl number hfollows
  refine ⟨_, number, hparse, spotPlace_injective hnumber, ?_, ?_⟩
  · intro place node hin _ scope inTemplate spot ps hsaid
    have hnode := hin.keeps hgrown fun _ => IsGrown.children
    exact place_of_saidPlace hnumber hnode hsaid
  · intro place node hin hblock
    have hnode := hin.keeps hformed fun _ => IsFormed.children
    obtain ⟨inTemplate, ps, hsaid, hhas⟩ := hfound place node hin hblock
    refine ⟨scope, inTemplate, ps, hsaid, hhas, ?_⟩
    obtain ⟨r, s, t, blocks⟩ := node
    have hrule : r = .triplesBlock ∨ r = .templateTriples := by
      simpa [isBlock, ParseTree.rule] using hblock
    have hblocks := children_of_block hrule hnode
    refine HoldsBehind.holdsIn (areLinked_of_saidBlocks (fun child hchild =>
      ⟨hnode.children child hchild, hblocks child hchild⟩) hsaid) fun hlist => ?_
    rcases hrule with rfl | rfl <;> cases hlist

end RdfStore.Query

namespace RdfStore

open RdfStore.Peg RdfStore.Syntax

/-- In every document and in every query that is read, a collection denotes its first cell, or the
empty list if it has no items, and states exactly two triples for each of its cells: its item, and
the cell behind it or the end. Cells are new: no other spot and nothing else in the text denotes
them. -/
theorem collections_areLinked :
    (∀ text base ts, Turtle.read text base = .ok ts → ∃ root ν,
      Turtle.parseDocument text.toList = .ok [root] ∧ Function.Injective ν ∧
        Turtle.saidDocument ν base [root] = .means () ts ∧ Turtle.AreLinked ν ts [] root) ∧
    ∀ text q, Query.read text = .ok q → ∃ root number,
      Query.parseQuery text.toList = .ok [root] ∧
        (∀ inTemplate, Function.Injective (Query.spotPlace number inTemplate)) ∧
        HoldsIn (fun _ => true) (Query.IsApart number) [] root ∧
        HoldsIn Query.isBlock (Query.IsLinkedBlock number q) [] root :=
  ⟨fun _ _ _ => Turtle.areLinked_of_read, fun _ _ => Query.areLinked_of_read⟩

/-- A document with nested collections. -/
def nestedDocument : String := "<x:a> <x:p> ( [ <x:q> ( 1 ) ] ( ) _:b0 ( \"a\" ( <x:b> ) ) ) ."

/-- A query with collections in its template, in its pattern and in a filter. -/
def nestedQuery : String :=
  "CONSTRUCT \x7b ?x <x:p> ( ?x ( [] ) ) \x7d WHERE \x7b ( ?x ( ) ( 1 _:b ) ) ?p ?y " ++
    "FILTER NOT EXISTS \x7b ?y ?p ( ?x ) \x7d \x7d"

/-- Collections inside collections are linked in a document, in a pattern and in a template. -/
theorem collections_areLinked_nested :
    (∃ ts, Turtle.read nestedDocument none = .ok ts ∧ ∃ root ν,
      Turtle.parseDocument nestedDocument.toList = .ok [root] ∧ Function.Injective ν ∧
        Turtle.saidDocument ν none [root] = .means () ts ∧ Turtle.AreLinked ν ts [] root) ∧
    ∃ q, Query.read nestedQuery = .ok q ∧ ∃ root number,
      Query.parseQuery nestedQuery.toList = .ok [root] ∧
        (∀ inTemplate, Function.Injective (Query.spotPlace number inTemplate)) ∧
        HoldsIn (fun _ => true) (Query.IsApart number) [] root ∧
        HoldsIn Query.isBlock (Query.IsLinkedBlock number q) [] root := by
  have hdocument : (Turtle.read nestedDocument none).toBool = true := by decide +kernel
  have hquery : Query.isAccepted nestedQuery = true := by decide +kernel
  obtain ⟨q, hq⟩ := Query.exists_read_of_isAccepted hquery
  cases hts : Turtle.read nestedDocument none with
  | error e =>
    rw [hts] at hdocument
    cases hdocument
  | ok ts =>
    exact ⟨⟨ts, rfl, collections_areLinked.1 _ _ _ hts⟩, q, hq, collections_areLinked.2 _ _ hq⟩

end RdfStore
