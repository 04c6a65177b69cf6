import Mathlib.Data.List.Forall2
import RdfStore.Proofs.Peg.Growth
import RdfStore.Proofs.Peg.Shape

/-!
# Texts that are cut

Of a text that is cut only a front is seen, and the characters that can come behind it. What an
attempt to match it looks for is read or refused in what is seen, or it is unclear. Some rules read
the end of the front and what stands behind the cut as a whole, whatever that is, and matching goes
on after it. If nothing remains unclear then two texts with the same front are matched alike: the
trees are the same, apart from places and from what those rules read.
-/

set_option autoImplicit false

namespace RdfStore.Peg

open RdfStore.Text

variable {R : Type}

/-! ## Trees that differ at one place -/

namespace ParseTree

mutual

/-- A tree without the places of its nodes. -/
def unplaced : ParseTree R → ParseTree R
  | .node r _ text children => .node r 0 text (unplacedAll children)

/-- Trees without the places of their nodes. -/
def unplacedAll : List (ParseTree R) → List (ParseTree R)
  | [] => []
  | tree :: trees => tree.unplaced :: unplacedAll trees

end

/-- The places of trees in a row are left out of each part. -/
theorem unplacedAll_append (trees more : List (ParseTree R)) :
    unplacedAll (trees ++ more) = unplacedAll trees ++ unplacedAll more := by
  induction trees with
  | nil => rfl
  | cons tree rest ih => rw [List.cons_append, unplacedAll, unplacedAll, ih, List.cons_append]

end ParseTree

open ParseTree (unplacedAll unplacedAll_append)

/-- Two trees are the same apart from places and from twins inside them. The texts of nodes around
twins may differ; only some rules leave such nodes. -/
inductive Same (encloses : R → Bool) (twin : ParseTree R → ParseTree R → Prop) :
    ParseTree R → ParseTree R → Prop where
  | moved {tree tree' : ParseTree R} (h : tree.unplaced = tree'.unplaced) :
    Same encloses twin tree tree'
  | twin {tree tree' : ParseTree R} (h : twin tree tree') : Same encloses twin tree tree'
  | around {r : R} {start start' : Nat} {text text' : List Char}
    {children children' : List (ParseTree R)} (hencloses : encloses r = true)
    (h : List.Forall₂ (Same encloses twin) children children') :
    Same encloses twin (.node r start text children) (.node r start' text' children')

variable {g : Grammar R} {encloses : R → Bool} {twin : ParseTree R → ParseTree R → Prop}

/-- Trees that differ in their places only are the same. -/
theorem same_of_unplacedAll {trees trees' : List (ParseTree R)}
    (h : unplacedAll trees = unplacedAll trees') :
    List.Forall₂ (Same encloses twin) trees trees' := by
  induction trees generalizing trees' with
  | nil =>
    cases trees' with
    | nil => exact .nil
    | cons _ _ => cases h
  | cons tree rest ih =>
    cases trees' with
    | nil => cases h
    | cons tree' rest' =>
      obtain ⟨htree, hrest⟩ := List.cons.inj h
      exact .cons (.moved htree) (ih hrest)

/-! ## Views -/

/-- What is seen of a text, up to its end or up to a cut. -/
structure View where
  seen : List Char
  isCut : Bool
deriving DecidableEq

/-- The text, given what stands behind the cut. -/
def View.fill (v : View) (ending : List Char) : List Char :=
  v.seen ++ if v.isCut then ending else []

/-- What is known of an attempt to match. -/
inductive Sight where
  | reads (rest : View)
  | refuses
  /-- It depends on what stands behind the cut. -/
  | unclear
deriving DecidableEq

/-- What is known of the text behind a cut. -/
structure Cut (R : Type) where
  /-- The characters that can come first. -/
  heads : List Char
  /-- The end of what is seen, with which some rules start to read. -/
  word : List Char
  /-- The rules that read the word and go on behind the cut. -/
  fills : R → Bool
  /-- The rules that may call these, directly or not. -/
  encloses : R → Bool
  /-- The text after what they read. -/
  after : List Char

namespace Cut

/-- A rule can read across the cut. -/
def spans (c : Cut R) (r : R) : Bool := c.fills r || c.encloses r

/-- A character of a class is seen next. -/
def char (c : Cut R) (isMember : Char → Bool) (v : View) : Sight :=
  match v.seen with
  | d :: rest => if isMember d then .reads { v with seen := rest } else .refuses
  | [] => if v.isCut && c.heads.any isMember then .unclear else .refuses

/-- Given characters are seen next, in either case of ASCII letters if asked. -/
def strip (c : Cut R) (ignoreCase : Bool) : List Char → View → Sight
  | [], v => .reads v
  | p :: chars, v =>
    match c.char (fun d => p = d || (ignoreCase && asciiLower p == asciiLower d)) v with
    | .reads v₁ => strip c ignoreCase chars v₁
    | other => other

/-- What is seen after blanks, unless they may go on behind the cut. -/
def skip? (c : Cut R) (g : Grammar R) (mode : Mode) (v : View) : Option View :=
  if mode = .words then
    if v.isCut && c.heads.any fun d => g.blanks (v.seen ++ [d]) != g.blanks v.seen then none
    else some { v with seen := v.seen.drop (g.blanks v.seen) }
  else some v

/-- Repeats a step until it refuses, at most `fuel` times. -/
def repeatStep (step : View → Sight) : Nat → View → Sight
  | 0, _ => .unclear
  | fuel + 1, v =>
    match step v with
    | .reads v₁ => repeatStep step fuel v₁
    | .refuses => .reads v
    | .unclear => .unclear

/-- What is known of matching an expression; `call` tells it of the rules. -/
def expr (c : Cut R) (g : Grammar R) (call : R → Mode → View → Sight) (fuel : Nat) (mode : Mode) :
    Expr R → View → Sight
  | .nothing, v => .reads v
  | .char isMember, v => c.char isMember v
  | .text chars, v => c.strip false chars v
  | .word chars, v => c.strip true chars v
  | .rule r, v => call r mode v
  | .seq first second, v =>
    match c.expr g call fuel mode first v with
    | .reads v₁ =>
      match c.skip? g mode v₁ with
      | some v₂ => c.expr g call fuel mode second v₂
      | none => .unclear
    | other => other
  | .choice first second, v =>
    match c.expr g call fuel mode first v with
    | .refuses => c.expr g call fuel mode second v
    | other => other
  | .star item, v =>
    match c.expr g call fuel mode item v with
    | .reads v₁ =>
      repeatStep (fun v => ((c.skip? g mode v).map (c.expr g call fuel mode item)).getD .unclear)
        fuel v₁
    | .refuses => .reads v
    | .unclear => .unclear
  | .notAhead item, v =>
    match c.expr g call fuel mode item v with
    | .reads _ => .refuses
    | .refuses => .reads v
    | .unclear => .unclear
  | .ahead item, v =>
    match c.expr g call fuel mode item v with
    | .reads _ => .reads v
    | other => other

/-- What is known of matching a rule; `fuel` bounds the depth of calls. -/
def rule (c : Cut R) (g : Grammar R) : Nat → R → Mode → View → Sight
  | 0, _, _, _ => .unclear
  | fuel + 1, r, mode, v =>
    if v = ⟨c.word, true⟩ ∧ c.fills r = true ∧ mode = .words then .reads ⟨c.after, false⟩
    else c.expr g (c.rule g fuel) fuel ((g.production r).manner.bodyMode mode)
      (g.production r).body v

/-! ## Endings -/

/-- A text can stand behind a cut: it starts with one of the given characters, and they are no
blanks. -/
structure Fits (c : Cut R) (g : Grammar R) (ending : List Char) : Prop where
  head : ∃ d ∈ c.heads, ∃ more, ending = d :: more
  blanks : ∀ seen, (∀ d ∈ c.heads, g.blanks (seen ++ [d]) = g.blanks seen) →
    g.blanks (seen ++ ending) = g.blanks seen

/-- Two texts can stand behind a cut, and what fills it in the one document is a twin of what fills
it in the other. -/
structure Pairs (c : Cut R) (g : Grammar R) (twin : ParseTree R → ParseTree R → Prop)
    (total total' : Nat) (ending ending' : List Char) : Prop where
  fits : c.Fits g ending
  fits' : c.Fits g ending'
  encloses : ∀ r, ∀ q ∈ (g.production r).body.calls, c.spans q = true → c.encloses r = true
  fills : ∀ r, c.fills r = true → ∃ tree tree', twin tree tree' ∧
    Grows g total .words (.once (.rule r)) (c.word ++ ending) [tree] c.after ∧
    Grows g total' .words (.once (.rule r)) (c.word ++ ending') [tree'] c.after

/-- How trees are alike that an expression leaves between two views: the same apart from places, or
the cut is between them. -/
def Alike (c : Cut R) (twin : ParseTree R → ParseTree R → Prop) (e : Expr R) (v v' : View)
    (trees trees' : List (ParseTree R)) : Prop :=
  (v'.isCut = v.isCut ∧ (∃ taken, v.seen = taken ++ v'.seen) ∧
      unplacedAll trees = unplacedAll trees') ∨
    (v.isCut = true ∧ v'.isCut = false ∧ (∃ r ∈ e.calls, c.spans r = true) ∧
      List.Forall₂ (Same c.encloses twin) trees trees')

end Cut

/-- What a sight says about a task in two documents. -/
def Sight.Holds (g : Grammar R) (c : Cut R) (twin : ParseTree R → ParseTree R → Prop)
    (total total' : Nat) (ending ending' : List Char) (mode : Mode) (task : Task R) (v : View) :
    Sight → Prop
  | .reads v' => ∃ trees trees', Grows g total mode task (v.fill ending) trees (v'.fill ending) ∧
      Grows g total' mode task (v.fill ending') trees' (v'.fill ending') ∧
      c.Alike twin task.expr v v' trees trees'
  | .refuses => Runs g mode task (v.fill ending) none ∧ Runs g mode task (v.fill ending') none
  | .unclear => True

namespace Cut

/-! ## Views and texts -/

section Views

variable {c : Cut R} {ending : List Char} {v v' : View} {mode : Mode}

/-- One view is seen behind another, on the same side of the cut. -/
def IsBehind (v' v : View) : Prop := v'.isCut = v.isCut ∧ ∃ taken, v.seen = taken ++ v'.seen

/-- A view is seen behind itself, with nothing in between. -/
theorem IsBehind.refl (v : View) : IsBehind v v := ⟨rfl, [], rfl⟩

/-- What is seen behind a view that is behind a third is behind the third. -/
theorem IsBehind.trans {v₁ : View} (h : IsBehind v' v₁) (h' : IsBehind v₁ v) : IsBehind v' v := by
  obtain ⟨hcut, taken, hseen⟩ := h
  obtain ⟨hcut', taken', hseen'⟩ := h'
  exact ⟨hcut.trans hcut', taken' ++ taken, by rw [hseen', hseen, List.append_assoc]⟩

/-- What is between two views is the same in every document. -/
theorem IsBehind.exists_taken (h : IsBehind v' v) :
    ∃ taken, ∀ ending, v.fill ending = taken ++ v'.fill ending := by
  obtain ⟨hcut, taken, hseen⟩ := h
  refine ⟨taken, fun ending => ?_⟩
  rw [View.fill, View.fill, hseen, hcut, List.append_assoc]

/-- A character is read, or refused before every ending, or unclear. -/
theorem char_cases (c : Cut R) (isMember : Char → Bool) (v : View) :
    (∃ d rest, v.seen = d :: rest ∧ isMember d = true ∧
      c.char isMember v = .reads ⟨rest, v.isCut⟩) ∨
    (c.char isMember v = .refuses ∧ ∀ g ending, c.Fits g ending →
      ∀ d ∈ (v.fill ending).head?, isMember d = false) ∨
    c.char isMember v = .unclear := by
  obtain ⟨seen, isCut⟩ := v
  cases seen with
  | cons d rest =>
    by_cases hd : isMember d = true
    · exact .inl ⟨d, rest, rfl, hd, if_pos hd⟩
    · refine .inr (.inl ⟨if_neg hd, ?_⟩)
      rintro g ending - _ ⟨⟩
      exact eq_false_of_ne_true hd
  | nil =>
    by_cases hcut : (isCut && c.heads.any isMember) = true
    · exact .inr (.inr (if_pos hcut))
    · refine .inr (.inl ⟨if_neg hcut, fun g ending hfits d hd => ?_⟩)
      cases isCut with
      | false => cases hd
      | true =>
        obtain ⟨e, he, more, rfl⟩ := hfits.head
        cases hd
        refine eq_false_of_ne_true fun hmember => hcut ?_
        exact Bool.and_eq_true_iff.mpr ⟨rfl, List.any_eq_true.mpr ⟨_, he, hmember⟩⟩

/-- Characters are found, or missed before every ending, or it is unclear. -/
theorem strip_cases (c : Cut R) (ignoreCase : Bool) (chars : List Char) (v : View) :
    (∃ v', c.strip ignoreCase chars v = .reads v' ∧ IsBehind v' v ∧
      ∀ ending, stripText? ignoreCase chars (v.fill ending) = some (v'.fill ending)) ∨
    (c.strip ignoreCase chars v = .refuses ∧ ∀ g ending, c.Fits g ending →
      stripText? ignoreCase chars (v.fill ending) = none) ∨
    c.strip ignoreCase chars v = .unclear := by
  induction chars generalizing v with
  | nil => exact .inl ⟨v, rfl, .refl v, fun _ => rfl⟩
  | cons p chars ih =>
    unfold strip
    rcases c.char_cases (fun d => p = d || (ignoreCase && asciiLower p == asciiLower d)) v with
      ⟨d, rest, hseen, hd, hchar⟩ | ⟨hchar, hrefuses⟩ | hchar
    · have hbehind : IsBehind ⟨rest, v.isCut⟩ v := ⟨rfl, [d], hseen⟩
      have hstep : ∀ ending, stripText? ignoreCase (p :: chars) (v.fill ending) =
          stripText? ignoreCase chars (View.fill ⟨rest, v.isCut⟩ ending) := by
        intro ending
        rw [View.fill, hseen, List.cons_append, stripText?, if_pos hd]
        rfl
      rw [hchar]
      dsimp only
      rcases ih ⟨rest, v.isCut⟩ with ⟨v', hstrip, hv', hfound⟩ | ⟨hstrip, hmissed⟩ | hstrip
      · exact .inl ⟨v', hstrip, hv'.trans hbehind, fun ending =>
          (hstep ending).trans (hfound ending)⟩
      · exact .inr (.inl ⟨hstrip, fun g ending hfits =>
          (hstep ending).trans (hmissed g ending hfits)⟩)
      · exact .inr (.inr hstrip)
    · rw [hchar]
      refine .inr (.inl ⟨rfl, fun g ending hfits => ?_⟩)
      have hhead := hrefuses g ending hfits
      generalize v.fill ending = cs at hhead
      cases cs with
      | nil => rfl
      | cons d cs =>
        rw [stripText?]
        exact if_neg (Bool.eq_false_iff.mp (hhead d rfl))
    · rw [hchar]
      exact .inr (.inr rfl)

/-- What is seen after blanks is the text after blanks. -/
theorem skip_of_skip? [g.HasBlanks] (h : c.skip? g mode v = some v') :
    IsBehind v' v ∧ ∀ ending, c.Fits g ending → g.skip mode (v.fill ending) = v'.fill ending := by
  unfold skip? at h
  split at h
  · rename_i hmode
    subst hmode
    split at h
    · cases h
    · rename_i hblanks
      cases h
      have hle := Grammar.HasBlanks.blanks_le (g := g) v.seen
      refine ⟨⟨rfl, _, (List.take_append_drop _ v.seen).symm⟩, fun ending hfits => ?_⟩
      show (v.fill ending).drop (g.blanks (v.fill ending)) = _
      have hsame : g.blanks (v.fill ending) = g.blanks v.seen := by
        unfold View.fill
        cases hcut : v.isCut with
        | false => exact congrArg g.blanks (List.append_nil _)
        | true =>
          refine hfits.blanks v.seen fun d hd => ?_
          rw [hcut, Bool.true_and, Bool.not_eq_true, List.any_eq_false] at hblanks
          exact not_not.mp fun hne => hblanks d hd (bne_iff_ne.mpr hne)
      rw [hsame, View.fill, View.fill, List.drop_append_of_le_length hle]
  · rename_i hmode
    cases h
    exact ⟨.refl v, fun ending _ => Grammar.skip_of_ne hmode _⟩

end Views

/-! ## Sights and matches -/

section Sound

variable {c : Cut R} {total total' : Nat} {ending ending' : List Char} {mode : Mode}
  {e first second item : Expr R} {v v' v₁ v₂ : View} {trees trees' more more' : List (ParseTree R)}

/-- Nothing is left where nothing is read across the cut. -/
theorem IsBehind.alike_nil (h : IsBehind v' v) : c.Alike twin e v v' [] [] :=
  .inl ⟨h.1, h.2, rfl⟩

/-- What is left one after the other is alike if each part is. -/
theorem Alike.append (h : c.Alike twin first v v₁ trees trees') (hskip : IsBehind v₂ v₁)
    (h' : c.Alike twin second v₂ v' more more')
    (hcalls : ∀ r, r ∈ first.calls ∨ r ∈ second.calls → r ∈ e.calls) :
    c.Alike twin e v v' (trees ++ more) (trees' ++ more') := by
  have hcut := hskip.1
  rcases h with ⟨hsame, htaken, htrees⟩ | ⟨hbefore, hbehind, ⟨r, hr, hspans⟩, htrees⟩
  · rcases h' with ⟨hsame', htaken', hmore⟩ | ⟨hbefore', hbehind', ⟨r, hr, hspans⟩, hmore⟩
    · have hall : IsBehind v' v := .trans ⟨hsame', htaken'⟩ (hskip.trans ⟨hsame, htaken⟩)
      refine .inl ⟨hall.1, hall.2, ?_⟩
      rw [unplacedAll_append, unplacedAll_append, htrees, hmore]
    · refine .inr ⟨?_, hbehind', ⟨r, hcalls r (.inr hr), hspans⟩, ?_⟩
      · rw [← hsame, ← hcut, hbefore']
      · exact List.rel_append (same_of_unplacedAll htrees) hmore
  · rcases h' with ⟨hsame', htaken', hmore⟩ | ⟨hbefore', -⟩
    · refine .inr ⟨hbefore, ?_, ⟨r, hcalls r (.inl hr), hspans⟩, ?_⟩
      · rw [hsame', hcut, hbehind]
      · exact List.rel_append htrees (same_of_unplacedAll hmore)
    · rw [hcut, hbehind] at hbefore'
      cases hbefore'

/-- What a part of an expression leaves is alike if it is what the expression leaves. -/
theorem Alike.mono (h : c.Alike twin first v v' trees trees')
    (hcalls : ∀ r ∈ first.calls, r ∈ e.calls) : c.Alike twin e v v' trees trees' :=
  h.imp_right fun ⟨hbefore, hbehind, ⟨r, hr, hspans⟩, htrees⟩ =>
    ⟨hbefore, hbehind, ⟨r, hcalls r hr, hspans⟩, htrees⟩

variable [g.HasBlanks] (hpairs : c.Pairs g twin total total' ending ending')

include hpairs

/-- What is known of a repetition holds if it does of the item. -/
theorem repeatStep_holds {call : R → Mode → View → Sight} {fuel : Nat}
    (hitem : ∀ v, (c.expr g call fuel mode item v).Holds g c twin total total' ending ending' mode
      (.once item) v) (bound : Nat) (v : View) :
    (repeatStep (fun v => ((c.skip? g mode v).map (c.expr g call fuel mode item)).getD .unclear)
      bound v).Holds g c twin total total' ending ending' mode (.again item) v := by
  induction bound generalizing v with
  | zero => exact trivial
  | succ bound ih =>
    unfold repeatStep
    cases hskip : c.skip? g mode v with
    | none => exact trivial
    | some v₁ =>
      obtain ⟨hbehind, hskipped⟩ := skip_of_skip? hskip
      have hold := hskipped ending hpairs.fits
      have hnew := hskipped ending' hpairs.fits'
      have hfirst := hitem v₁
      dsimp only [Option.map_some, Option.getD_some]
      cases hsight : c.expr g call fuel mode item v₁ with
      | unclear => exact trivial
      | refuses =>
        rw [hsight] at hfirst
        exact ⟨[], [], .again_stop (hold ▸ hfirst.1), .again_stop (hnew ▸ hfirst.2),
          (IsBehind.refl v).alike_nil⟩
      | reads v₂ =>
        rw [hsight] at hfirst
        obtain ⟨trees, trees', hgrows, hgrows', halike⟩ := hfirst
        have hmore := ih v₂
        dsimp only
        cases hagain : repeatStep
            (fun v => ((c.skip? g mode v).map (c.expr g call fuel mode item)).getD .unclear)
            bound v₂ with
        | unclear => exact trivial
        | refuses =>
          rw [hagain] at hmore
          cases hmore.1
        | reads v₃ =>
          rw [hagain] at hmore
          obtain ⟨more, more', hlater, hlater', hmore⟩ := hmore
          refine ⟨_, _, .again (hold ▸ hgrows) hlater, .again (hnew ▸ hgrows') hlater', ?_⟩
          have hstart : c.Alike twin item v v₁ [] [] := hbehind.alike_nil
          have hboth := halike.append (.refl v₂) hmore fun _ h => h.elim id id
          exact hstart.append (.refl v₁) hboth fun _ h => h.elim id id

omit [g.HasBlanks] in
/-- What is known of characters in a row holds. -/
theorem strip_holds {ignoreCase : Bool} {chars : List Char}
    (hread : ∀ {cs rest}, stripText? ignoreCase chars cs = some rest → ∀ total,
      Grows g total mode (.once e) cs [] rest)
    (hfail : ∀ {cs}, stripText? ignoreCase chars cs = none → Runs g mode (.once e) cs none)
    (v : View) :
    (c.strip ignoreCase chars v).Holds g c twin total total' ending ending' mode (.once e) v := by
  rcases c.strip_cases ignoreCase chars v with
    ⟨v', hstrip, hbehind, hfound⟩ | ⟨hstrip, hmissed⟩ | hstrip
  · rw [hstrip]
    exact ⟨[], [], hread (hfound ending) total, hread (hfound ending') total', hbehind.alike_nil⟩
  · rw [hstrip]
    exact ⟨hfail (hmissed g ending hpairs.fits), hfail (hmissed g ending' hpairs.fits')⟩
  · rw [hstrip]
    exact trivial

/-- What is known of an expression holds if it does of the rules. -/
theorem expr_holds {call : R → Mode → View → Sight} {fuel : Nat}
    (hcall : ∀ r mode v, (call r mode v).Holds g c twin total total' ending ending' mode
      (.once (.rule r)) v) (e : Expr R) (v : View) :
    (c.expr g call fuel mode e v).Holds g c twin total total' ending ending' mode (.once e) v := by
  induction e generalizing v with
  | nothing => exact ⟨[], [], .nothing, .nothing, (IsBehind.refl v).alike_nil⟩
  | char isMember =>
    unfold expr
    rcases c.char_cases isMember v with
      ⟨d, rest, hseen, hd, hchar⟩ | ⟨hchar, hrefuses⟩ | hchar
    · rw [hchar]
      have hbehind : IsBehind ⟨rest, v.isCut⟩ v := ⟨rfl, [d], hseen⟩
      have hread : ∀ total ending, Grows g total mode (.once (.char isMember)) (v.fill ending) []
          (View.fill ⟨rest, v.isCut⟩ ending) := by
        intro total ending
        rw [View.fill, hseen]
        exact .char hd
      exact ⟨[], [], hread total ending, hread total' ending', hbehind.alike_nil⟩
    · rw [hchar]
      exact ⟨.char_failed (hrefuses g ending hpairs.fits),
        .char_failed (hrefuses g ending' hpairs.fits')⟩
    · rw [hchar]
      exact trivial
  | text chars => exact strip_holds hpairs (fun h _ => .text h) .text_failed v
  | word chars => exact strip_holds hpairs (fun h _ => .word h) .word_failed v
  | rule r => exact hcall r mode v
  | seq first second ihFirst ihSecond =>
    have hfirst := ihFirst v
    unfold expr
    cases hsight : c.expr g call fuel mode first v with
    | unclear => exact trivial
    | refuses =>
      rw [hsight] at hfirst
      exact ⟨.seq_left hfirst.1, .seq_left hfirst.2⟩
    | reads v₁ =>
      rw [hsight] at hfirst
      obtain ⟨trees, trees', hgrows, hgrows', halike⟩ := hfirst
      dsimp only
      cases hskip : c.skip? g mode v₁ with
      | none => exact trivial
      | some v₂ =>
        obtain ⟨hbehind, hskipped⟩ := skip_of_skip? hskip
        have hold := hskipped ending hpairs.fits
        have hnew := hskipped ending' hpairs.fits'
        have hsecond := ihSecond v₂
        dsimp only
        cases hsight' : c.expr g call fuel mode second v₂ with
        | unclear => exact trivial
        | refuses =>
          rw [hsight'] at hsecond
          exact ⟨.seq_right hgrows.runs (hold ▸ hsecond.1),
            .seq_right hgrows'.runs (hnew ▸ hsecond.2)⟩
        | reads v₃ =>
          rw [hsight'] at hsecond
          obtain ⟨more, more', hlater, hlater', hmore⟩ := hsecond
          refine ⟨_, _, .seq hgrows (hold ▸ hlater), .seq hgrows' (hnew ▸ hlater'), ?_⟩
          exact halike.append hbehind hmore fun _ => List.mem_append.mpr
  | choice first second ihFirst ihSecond =>
    have hfirst := ihFirst v
    unfold expr
    cases hsight : c.expr g call fuel mode first v with
    | unclear => exact trivial
    | reads v₁ =>
      rw [hsight] at hfirst
      obtain ⟨trees, trees', hgrows, hgrows', halike⟩ := hfirst
      exact ⟨trees, trees', .choice_left hgrows, .choice_left hgrows',
        halike.mono fun _ => List.mem_append_left _⟩
    | refuses =>
      rw [hsight] at hfirst
      have hsecond := ihSecond v
      dsimp only
      cases hsight' : c.expr g call fuel mode second v with
      | unclear => exact trivial
      | refuses =>
        rw [hsight'] at hsecond
        exact ⟨.choice_right hfirst.1 hsecond.1, .choice_right hfirst.2 hsecond.2⟩
      | reads v₁ =>
        rw [hsight'] at hsecond
        obtain ⟨trees, trees', hgrows, hgrows', halike⟩ := hsecond
        exact ⟨trees, trees', .choice_right hfirst.1 hgrows, .choice_right hfirst.2 hgrows',
          halike.mono fun _ => List.mem_append_right _⟩
  | star item ih =>
    have hitem := ih v
    unfold expr
    cases hsight : c.expr g call fuel mode item v with
    | unclear => exact trivial
    | refuses =>
      rw [hsight] at hitem
      exact ⟨[], [], .star_stop hitem.1, .star_stop hitem.2, (IsBehind.refl v).alike_nil⟩
    | reads v₁ =>
      rw [hsight] at hitem
      obtain ⟨trees, trees', hgrows, hgrows', halike⟩ := hitem
      have hmore := repeatStep_holds hpairs ih fuel v₁
      dsimp only
      cases hagain : repeatStep
          (fun v => ((c.skip? g mode v).map (c.expr g call fuel mode item)).getD .unclear)
          fuel v₁ with
      | unclear => exact trivial
      | refuses =>
        rw [hagain] at hmore
        cases hmore.1
      | reads v₂ =>
        rw [hagain] at hmore
        obtain ⟨more, more', hlater, hlater', hmore⟩ := hmore
        exact ⟨_, _, .star hgrows hlater, .star hgrows' hlater',
          halike.append (.refl v₁) hmore fun _ h => h.elim id id⟩
  | notAhead item ih =>
    have hitem := ih v
    unfold expr
    cases hsight : c.expr g call fuel mode item v with
    | unclear => exact trivial
    | refuses =>
      rw [hsight] at hitem
      exact ⟨[], [], .notAhead hitem.1, .notAhead hitem.2, (IsBehind.refl v).alike_nil⟩
    | reads v₁ =>
      rw [hsight] at hitem
      obtain ⟨trees, trees', hgrows, hgrows', -⟩ := hitem
      exact ⟨.notAhead_failed hgrows.runs, .notAhead_failed hgrows'.runs⟩
  | ahead item ih =>
    have hitem := ih v
    unfold expr
    cases hsight : c.expr g call fuel mode item v with
    | unclear => exact trivial
    | refuses =>
      rw [hsight] at hitem
      exact ⟨.ahead_failed hitem.1, .ahead_failed hitem.2⟩
    | reads v₁ =>
      rw [hsight] at hitem
      obtain ⟨trees, trees', hgrows, hgrows', -⟩ := hitem
      exact ⟨[], [], .ahead hgrows.runs, .ahead hgrows'.runs, (IsBehind.refl v).alike_nil⟩

omit [g.HasBlanks] in
/-- What a rule leaves around what its body leaves is alike. -/
theorem Alike.grown {r : R} {start start' : Nat} {taken taken' : List Char}
    (h : c.Alike twin (g.production r).body v v' trees trees')
    (htaken : v.fill ending = taken ++ v'.fill ending)
    (htaken' : v.fill ending' = taken' ++ v'.fill ending') :
    c.Alike twin (.rule r) v v' (g.grown r mode start taken trees)
      (g.grown r mode start' taken' trees') := by
  unfold Grammar.grown
  rcases h with ⟨hsame, hbehind, htrees⟩ | ⟨hbefore, hbehind, ⟨q, hq, hspans⟩, htrees⟩
  · refine .inl ⟨hsame, hbehind, ?_⟩
    obtain ⟨between, hbetween⟩ := IsBehind.exists_taken ⟨hsame, hbehind⟩
    obtain rfl := List.append_cancel_right ((hbetween ending).symm.trans htaken)
    obtain rfl := List.append_cancel_right ((hbetween ending').symm.trans htaken')
    split
    · simp only [unplacedAll, ParseTree.unplaced, htrees]
    · exact htrees
  · have hr := hpairs.encloses r q hq hspans
    have hspans : c.spans r = true := Bool.or_eq_true_iff.mpr (.inr hr)
    refine .inr ⟨hbefore, hbehind, ⟨r, List.mem_singleton_self r, hspans⟩, ?_⟩
    split
    · exact .cons (.around hr htrees) .nil
    · exact htrees

/-- What is known of a rule holds. -/
theorem rule_holds (fuel : Nat) (r : R) (mode : Mode) (v : View) :
    (c.rule g fuel r mode v).Holds g c twin total total' ending ending' mode (.once (.rule r))
      v := by
  induction fuel generalizing r mode v with
  | zero => exact trivial
  | succ fuel ih =>
    unfold rule
    split
    · rename_i hfills
      obtain ⟨rfl, hr, rfl⟩ := hfills
      obtain ⟨tree, tree', htwin, hgrows, hgrows'⟩ := hpairs.fills r hr
      have hafter : ∀ ending, View.fill ⟨c.after, false⟩ ending = c.after :=
        fun _ => List.append_nil _
      have hspans : c.spans r = true := Bool.or_eq_true_iff.mpr (.inl hr)
      refine ⟨[tree], [tree'], ?_, ?_, .inr ⟨rfl, rfl, ⟨r, List.mem_singleton_self r, hspans⟩, ?_⟩⟩
      · rw [hafter]
        exact hgrows
      · rw [hafter]
        exact hgrows'
      · exact .cons (.twin htwin) .nil
    · let inside := (g.production r).manner.bodyMode mode
      have hbody : (c.expr g (c.rule g fuel) fuel inside (g.production r).body v).Holds g c twin
          total total' ending ending' inside (.once (g.production r).body) v :=
        expr_holds hpairs ih (g.production r).body v
      cases hsight : c.expr g (c.rule g fuel) fuel inside (g.production r).body v with
      | unclear => exact trivial
      | refuses =>
        rw [hsight] at hbody
        exact ⟨.rule_failed hbody.1, .rule_failed hbody.2⟩
      | reads v' =>
        rw [hsight] at hbody
        obtain ⟨trees, trees', hgrows, hgrows', halike⟩ := hbody
        obtain ⟨taken, htaken⟩ := hgrows.suffix
        obtain ⟨taken', htaken'⟩ := hgrows'.suffix
        exact ⟨_, _, .rule htaken.symm hgrows, .rule htaken'.symm hgrows',
          halike.grown hpairs htaken.symm htaken'.symm⟩

end Sound

end Cut

end RdfStore.Peg
