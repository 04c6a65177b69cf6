import RdfStore.Proofs.Peg.Pieces
import RdfStore.Proofs.Query.Guarded

/-!
# Validators and terminals

A text passes the test for labels, language tags or IRI texts exactly if the terminal of that name
matches the whole of it, in both grammars. The tests look at characters one by one or at the last
character; the terminals repeat greedily, look ahead behind dots and never go back. One direction
takes a run of the terminal apart, the other builds the run from the characters.
-/

set_option autoImplicit false

namespace RdfStore.Peg

variable {R : Type}

/-- A rule matches the whole of a text. -/
def Grammar.MatchesWhole (g : Grammar R) (r : R) (cs : List Char) : Prop :=
  ∃ tree, g.parse r cs = .ok [tree] ∧ tree.rule = r ∧ tree.text = cs

/-- The places at which a repetition of an item, started at a place, tries the item. -/
inductive Grammar.Visits (g : Grammar R) (mode : Mode) (item : Expr R) :
    List Char → List Char → Prop where
  | here {cs : List Char} : Visits g mode item cs cs
  | later {cs mid place : List Char} {nodes : List (Outline R)}
    (h : Reads g mode item cs nodes mid) (h' : Visits g mode item (g.skip mode mid) place) :
    Visits g mode item cs place

variable {g : Grammar R} {r : R} {cs : List Char}

/-- A rule that reads all of a text matches the whole of it. -/
theorem Reads.matchesWhole {reads : R → Bool} {rank : R → Nat} (hg : g.IsGuarded reads rank)
    (hwords : (g.production r).manner ≠ .words) {nodes : List (Outline R)}
    (h : Reads g .words (.rule r) cs [.node r cs nodes] []) : g.MatchesWhole r cs := by
  obtain ⟨trees, hparse, hnodes⟩ := h.parse hg
  obtain ⟨tree, rfl, houtline⟩ := Grammar.eq_singleton_of_outlines hnodes
  obtain ⟨start, written, trees, rfl, -, hwritten⟩ := Grammar.eq_of_outline houtline
  rw [Grammar.outlineText, if_neg hwords] at hwritten
  exact ⟨_, hparse, rfl, hwritten⟩

/-- A visible rule of tokens matches a whole text if a run of its body does. -/
theorem Grammar.matchesWhole_iff [g.HasBlanks] {reads : R → Bool} {rank : R → Nat}
    (hg : g.IsGuarded reads rank) (hwords : (g.production r).manner ≠ .words)
    (hvisible : (g.production r).manner.isVisible .words = true) :
    g.MatchesWhole r cs ↔ ∃ nodes, Runs g ((g.production r).manner.bodyMode .words)
      (.once (g.production r).body) cs (some (nodes, [])) := by
  constructor
  · rintro ⟨tree, hparse, hrule, htext⟩
    have hcomes := matchRule_comes (g := g) ((cs.length + 2) * g.ruleCount) r .words ⟨cs, 0, 0⟩
    unfold Grammar.parse at hparse
    split at hparse
    · rename_i trees s hmatched
      cases hparse
      rw [hmatched] at hcomes
      obtain ⟨-, -, -, hrun⟩ := hcomes
      obtain ⟨taken, inner, hcs, hnodes, hbody⟩ := hrun.of_rule
      rw [Grammar.around, if_pos hvisible, Grammar.outlineText, if_neg hwords] at hnodes
      obtain ⟨tree', htrees, houtline⟩ := eq_singleton_of_outlines hnodes
      cases htrees
      obtain ⟨start, written, trees, rfl, -, hwritten⟩ := eq_of_outline houtline
      rw [Grammar.outlineText, if_neg hwords] at hwritten
      -- the text of the node is all of the text, so nothing is left behind it
      have htaken : taken = cs := hwritten.symm.trans htext
      have hrest : s.rest = [] := by
        rw [htaken] at hcs
        exact List.self_eq_append_right.mp hcs
      rw [hrest] at hbody
      exact ⟨inner, hbody⟩
    · cases hparse
    · cases hparse
  · rintro ⟨nodes, hbody⟩
    have hread : Reads g ((g.production r).manner.bodyMode .words) (g.production r).body
        (cs ++ []) nodes [] := by
      rw [List.append_nil]
      exact hbody.reads
    have hrule := Reads.rule_text hwords hvisible hread
    rw [List.append_nil] at hrule
    exact hrule.matchesWhole hg hwords

end RdfStore.Peg

namespace RdfStore.Syntax

open RdfStore.Peg RdfStore.Text

/-! ## The tests of characters -/

/-- A character in front that is no dot does not make a text end in one. -/
theorem getLast?_cons_ne_dot {c : Char} {cs : List Char} (hc : c ≠ '.')
    (hlast : cs.getLast? ≠ some '.') : (c :: cs).getLast? ≠ some '.' := by
  cases cs with
  | nil => simpa using hc
  | cons d ds => rwa [List.getLast?_cons_cons]

/-- Letters and digits in front of the rest of a subtag belong to it. -/
theorem isSubtagRest_append {letters tail : List Char}
    (hletters : ∀ c ∈ letters, isAsciiAlphanumeric c = true)
    (htail : Validity.isSubtags tail = true) :
    Validity.isSubtags.isSubtagRest (letters ++ tail) = true := by
  induction letters with
  | nil =>
    unfold Validity.isSubtags at htail
    split at htail
    · rfl
    · rwa [List.nil_append, Validity.isSubtags.isSubtagRest]
    · cases htail
  | cons c letters ih =>
    have hc := hletters c List.mem_cons_self
    have hhyphen : c ≠ '-' := by
      rintro rfl
      exact absurd hc (by decide)
    rw [List.cons_append, Validity.isSubtags.isSubtagRest, hc, Bool.true_and]
    · exact ih fun d hd => hletters d (List.mem_cons_of_mem c hd)
    · rintro d ds rfl
      exact absurd rfl hhyphen

/-- The characters of an address in the grammar are those that the validator allows. -/
theorem isIriChar_eq (c : Char) : isIriChar c = !Validity.isIriForbidden c := rfl

variable {R : Type} {g : Grammar R} {cs rest : List Char} {nodes : List (Outline R)}

/-- The places to which a repetition comes are ends of the text. -/
theorem suffix_of_visits {item : Expr R} {place : List Char}
    (h : g.Visits .token item cs place) : place <:+ cs := by
  induction h with
  | here => exact List.suffix_rfl
  | later hread _ ih =>
    obtain ⟨taken, rfl, -⟩ := hread
    exact ih.trans (List.suffix_append taken _)

/-- In a text of IRI characters there are no escapes. -/
theorem refuses_escape_of_suffix {place : List Char} (h : Validity.isIriText cs = true)
    (hplace : place <:+ cs) : Refuses g .token Terminal.numericEscape place := by
  cases place with
  | nil => exact refuses_of_peek (starts_of_ne (by decide) []) 0 rfl
  | cons c place =>
    have hc := List.all_eq_true.mp h c (hplace.subset List.mem_cons_self)
    refine refuses_numericEscape ?_ place
    rintro rfl
    exact absurd hc (by decide)

variable [g.HasBlanks] {embed : Terminal → R}

/-! ## Labels -/

/-- A character inside a name, or a dot with a character of the name somewhere behind it. -/
def dotted : Expr R := .choice (.char isNameChar) (Terminal.innerDot (.char isNameChar))

/-- A piece of a name is a character of names, or a dot that something follows. -/
theorem piece_of_dotted {piece after : List Char}
    (h : Runs g .token (.once dotted) (piece ++ after) (some (nodes, after))) :
    ∃ c, piece = [c] ∧ (isNameChar c = true ∨ c = '.' ∧ after ≠ []) := by
  rcases h.of_choice with hchar | ⟨-, hdot⟩
  · obtain ⟨-, c, hcs, hc⟩ := hchar.of_char
    exact ⟨c, List.append_cancel_right hcs, .inl hc⟩
  · obtain ⟨_, _, mid, -, hone, hahead⟩ := hdot.of_seq_tight (by decide)
    obtain ⟨-, hcs⟩ := hone.of_one
    cases hahead with
    | ahead hnext =>
      obtain ⟨_, _, mid', -, hdots, hchar⟩ := hnext.of_seq_tight (by decide)
      obtain ⟨-, c, hmid, -⟩ := hchar.of_char
      obtain ⟨taken, hafter⟩ := hdots.exists_taken
      refine ⟨'.', List.append_cancel_right hcs, .inr ⟨rfl, ?_⟩⟩
      rintro rfl
      simp [hmid] at hafter

/-- The pieces of a name up to the end of the text are characters of names and dots, and the last
one is no dot. -/
theorem name_of_pieces {pieces : List (List Char)}
    (h : Pieces g .token (dotted : Expr R) [] pieces) :
    (pieces.flatten.all fun c => isNameChar c || c == '.') = true ∧
      pieces.flatten.getLast? ≠ some '.' := by
  induction h with
  | stop _ => exact ⟨rfl, nofun⟩
  | @more piece pieces nodes hrun _ ih =>
    obtain ⟨hall, hlast⟩ := ih
    obtain ⟨c, rfl, hc⟩ := piece_of_dotted hrun
    rw [List.append_nil] at hc
    rw [List.flatten_cons, List.singleton_append]
    constructor
    · rw [List.all_cons, hall, Bool.and_true]
      rcases hc with hc | ⟨rfl, -⟩
      · rw [hc, Bool.true_or]
      · rfl
    · rcases hc with hc | ⟨rfl, hne⟩
      · refine getLast?_cons_ne_dot ?_ hlast
        rintro rfl
        exact absurd hc (by decide)
      · obtain ⟨d, ds, hmore⟩ := List.exists_cons_of_ne_nil hne
        rw [hmore] at hlast ⊢
        rwa [List.getLast?_cons_cons]

/-- A text that the terminal for labels reads is a label. -/
theorem isLabel_of_runs
    (h : Runs g .token (.once (Terminal.production embed .label).body) cs (some (nodes, []))) :
    Validity.isLabel cs = true := by
  obtain ⟨_, _, mid, -, hfirst, hmore⟩ := h.of_seq_tight (by decide)
  obtain ⟨-, c, rfl, hc⟩ := hfirst.of_char
  obtain ⟨pieces, hmid, hpieces⟩ := hmore.star_pieces (by decide)
  rw [List.append_nil] at hmid
  subst hmid
  obtain ⟨hall, hlast⟩ := name_of_pieces hpieces
  have hend : (c :: pieces.flatten).getLast? ≠ some '.' := by
    refine getLast?_cons_ne_dot ?_ hlast
    rintro rfl
    exact absurd hc (by decide)
  simp only [Validity.isLabel, hc, hall, Bool.true_and]
  exact bne_iff_ne.mpr hend

/-! ## Language tags -/

/-- The pieces of a repetition of subtags are subtags. -/
theorem isSubtags_of_pieces {pieces : List (List Char)}
    (h : Pieces g .token (subtag : Expr R) rest pieces) :
    Validity.isSubtags pieces.flatten = true := by
  induction h with
  | stop _ => rfl
  | @more piece pieces nodes hrun _ ih =>
    obtain ⟨_, _, mid, -, hhyphen, hplus⟩ := hrun.of_seq_tight (by decide)
    obtain ⟨-, hpiece⟩ := hhyphen.of_one
    obtain ⟨c, letters, rfl, hletters⟩ := hplus.of_plus_char (by decide)
    obtain rfl : piece = '-' :: c :: letters := List.append_cancel_right hpiece
    have hmore := isSubtagRest_append (fun d hd => hletters d (List.mem_cons_of_mem c hd)) ih
    simp [Validity.isSubtags, hletters c List.mem_cons_self, hmore]

/-- What the terminal for language tags reads behind its sign is a language tag. -/
theorem isLanguageTag_of_runs
    (h : Runs g .token (.once (Terminal.production embed .languageTag).body) cs
      (some (nodes, rest))) :
    ∃ tag, cs = '@' :: (tag ++ rest) ∧ Validity.isLanguageTag tag = true := by
  obtain ⟨_, _, mid, -, hat, hparts⟩ := h.of_seq_tight (by decide)
  obtain ⟨-, rfl⟩ := hat.of_one
  obtain ⟨_, _, mid', -, hletters, hsubtags⟩ := hparts.of_seq_tight (by decide)
  obtain ⟨c, letters, rfl, hall⟩ := hletters.of_plus_char (by decide)
  obtain ⟨pieces, rfl, hpieces⟩ := hsubtags.star_pieces (by decide)
  have htags := isSubtags_of_pieces hpieces
  refine ⟨c :: letters ++ pieces.flatten, by simp, ?_⟩
  -- no letter comes first behind the letters, so the test cuts the tag where the terminal does
  have hstop : pieces.flatten.takeWhile isAsciiLetter = [] ∧
      pieces.flatten.dropWhile isAsciiLetter = pieces.flatten := by
    unfold Validity.isSubtags at htags
    split at htags
    · rename_i hnil
      rw [hnil]
      exact ⟨rfl, rfl⟩
    · rename_i hhyphen
      rw [hhyphen]
      exact ⟨rfl, rfl⟩
    · cases htags
  unfold Validity.isLanguageTag
  rw [List.takeWhile_append_of_pos hall, List.dropWhile_append_of_pos hall, hstop.1, hstop.2, htags]
  rfl

/-! ## IRIs -/

/-- A piece of the content of an IRI: a numeric escape, or a character as it is. -/
def iriPiece : Expr R := .choice Terminal.numericEscape (.char isIriChar)

/-- A repetition that meets no escape reads the characters of IRIs. -/
theorem isIriText_of_runs
    (h : Runs g .token (.once (.star (iriPiece : Expr R))) cs (some (nodes, [])))
    (hplain : ∀ place, g.Visits .token iriPiece cs place →
      Refuses g .token Terminal.numericEscape place) : Validity.isIriText cs = true := by
  obtain ⟨pieces, hcs, hpieces⟩ := h.star_pieces (by decide)
  rw [List.append_nil] at hcs
  subst hcs
  clear h
  induction hpieces with
  | stop _ => rfl
  | @more piece pieces nodes hrun _ ih =>
    rw [List.append_nil] at hrun
    rw [List.flatten_cons] at hplain ⊢
    have hrest := ih fun place hplace => hplain place (.later hrun.reads hplace)
    rcases hrun.of_choice with hescape | ⟨-, hchar⟩
    · exact absurd (hplain _ .here) hescape.reads.not_refuses
    · obtain ⟨-, c, hc, hmember⟩ := hchar.of_char
      obtain rfl : piece = [c] := List.append_cancel_right hc
      rw [isIriChar_eq] at hmember
      rw [Validity.isIriText, List.singleton_append, List.all_cons, hmember, Bool.true_and]
      exact hrest

/-- A text of IRI characters is read to its end. -/
theorem reads_iriContent (h : Validity.isIriText cs = true) :
    Reads g .token (.star (iriPiece : Expr R)) cs [] [] := by
  have hitem : ∀ c ∈ cs, ∀ rest, Reads g .token (iriPiece : Expr R) (c :: rest) [] rest := by
    intro c hc rest
    have hchar := List.all_eq_true.mp h c hc
    have hslash : c ≠ '\\' := by
      rintro rfl
      exact absurd hchar (by decide)
    exact Reads.choice_right (refuses_numericEscape hslash rest) (reads_char hchar rest)
  have hend : Refuses g .token (iriPiece : Expr R) [] :=
    refuses_of_peek (starts_of_ne (by decide) []) 0 rfl
  have hall := (repeats_chars (by decide) hitem hend).star rfl
  rwa [List.append_nil] at hall

/-! ## The tests and the terminals -/

/-- The tests of names accept a text if and only if the terminals of a grammar match it. -/
structure ValidatorsAgree (g : Grammar R) (embed : Terminal → R) (cs : List Char) : Prop where
  label : Validity.isLabel cs = true ↔ g.MatchesWhole (embed .label) cs
  languageTag : Validity.isLanguageTag cs = true ↔ g.MatchesWhole (embed .languageTag) ('@' :: cs)
  /-- The content of an IRI may use escapes, which a checked text must not. -/
  iriContent : Validity.isIriText cs = true ↔ g.MatchesWhole (embed .iriContent) cs ∧
    ∀ place, g.Visits .token iriPiece cs place → Refuses g .token Terminal.numericEscape place

/-- A token matches a whole text if a run of its production does. -/
theorem matchesWhole_terminal_iff (hg : HasTokens g embed) {reads : R → Bool} {rank : R → Nat}
    (hguarded : g.IsGuarded reads rank) (t : Terminal) :
    g.MatchesWhole (embed t) cs ↔ ∃ nodes, Runs g ((t.production embed).manner.bodyMode .words)
      (.once (t.production embed).body) cs (some (nodes, [])) := by
  have hwords := manner_ne_words embed t
  have hvisible : (t.production embed).manner.isVisible .words = true :=
    isVisible_terminal embed t (by decide)
  rw [← hg.production t] at hwords hvisible ⊢
  exact Grammar.matchesWhole_iff hguarded hwords hvisible

/-- With the tokens of a grammar in which every match ends, the validators agree with it on every
text. -/
theorem validatorsAgree_of_isGuarded (hg : HasTokens g embed) {reads : R → Bool} {rank : R → Nat}
    (hguarded : g.IsGuarded reads rank) (cs : List Char) : ValidatorsAgree g embed cs where
  label := by
    rw [matchesWhole_terminal_iff hg hguarded]
    constructor
    · intro h
      have hread : Reads g .token (Terminal.production embed .label).body (cs ++ []) [] [] :=
        reads_label h (.inl rfl)
      rw [List.append_nil] at hread
      exact ⟨[], hread.runs⟩
    · rintro ⟨nodes, hrun⟩
      exact isLabel_of_runs hrun
  languageTag := by
    constructor
    · intro h
      have hread : Reads g .words (.rule (embed .languageTag)) ('@' :: (cs ++ [])) _ [] :=
        reads_languageTag hg (by decide) h (.inl rfl)
      rw [List.append_nil] at hread
      refine hread.matchesWhole hguarded ?_
      rw [hg.production]
      exact manner_ne_words embed .languageTag
    · intro h
      obtain ⟨nodes, hrun⟩ := (matchesWhole_terminal_iff hg hguarded _).mp h
      obtain ⟨tag, hcs, htag⟩ := isLanguageTag_of_runs hrun
      rw [List.append_nil] at hcs
      rwa [(List.cons.inj hcs).2]
  iriContent := by
    rw [matchesWhole_terminal_iff hg hguarded]
    constructor
    · intro h
      exact ⟨⟨[], (reads_iriContent h).runs⟩,
        fun place hplace => refuses_escape_of_suffix h (suffix_of_visits hplace)⟩
    · rintro ⟨⟨nodes, hrun⟩, hplain⟩
      exact isIriText_of_runs hrun hplain

/-- The tests of labels, language tags and IRI texts accept exactly what the terminals of both
languages match, the escapes of IRIs apart. -/
theorem validatorsAgree (cs : List Char) :
    ValidatorsAgree Turtle.grammar Turtle.Symbol.terminal cs ∧
      ValidatorsAgree Query.grammar Query.Symbol.terminal cs :=
  ⟨validatorsAgree_of_isGuarded Turtle.hasTokens Turtle.isGuarded_grammar cs,
    validatorsAgree_of_isGuarded Query.hasTokens Query.isGuarded_grammar cs⟩

end RdfStore.Syntax
