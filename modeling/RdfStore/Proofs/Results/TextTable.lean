import RdfStore.Proofs.Results.JsonTable
import RdfStore.Proofs.Results.Separated
import RdfStore.Proofs.Text.Joined

/-!
# Tables as text are unambiguous

A row is written as its names and terms, with nothing but an equals sign, a comma and a blank
between them, and rows stand on lines. Names have no equals sign, and a written term has a comma
only between its brackets or quotes, so a line can be taken apart again. Two tables with the same
columns are therefore written the same only if they have the same rows, with one exception: no rows,
and a single row that binds nothing, are both written as nothing.
-/

set_option autoImplicit false

namespace RdfStore

open Text

/-! ## Where a written term ends -/

/-- What a character of a text stands in. -/
inductive Enclosure where
  | outside
  /-- The brackets of an IRI. -/
  | brackets
  /-- The quotes of a literal. -/
  | quotes
  /-- The quotes of a literal, behind a backslash. -/
  | escape
deriving DecidableEq

/-- What the character after another one stands in. -/
def Enclosure.next : Enclosure → Char → Enclosure
  | .outside, c => if c = '<' then .brackets else if c = '"' then .quotes else .outside
  | .brackets, c => if c = '>' then .outside else .brackets
  | .quotes, c => if c = '"' then .outside else if c = '\\' then .escape else .quotes
  | .escape, _ => .quotes

/-- Cuts a text in front of its first comma outside of brackets and quotes. -/
def cutAtComma : Enclosure → List Char → List Char × List Char
  | _, [] => ([], [])
  | place, c :: cs =>
    if place = .outside ∧ c = ',' then ([], c :: cs)
    else (c :: (cutAtComma (place.next c) cs).1, (cutAtComma (place.next c) cs).2)

/-- A text without commas to cut at, that leads from one place to another. -/
def Leads (place : Enclosure) (text : List Char) (after : Enclosure) : Prop :=
  ∀ rest, cutAtComma place (text ++ rest) =
    (text ++ (cutAtComma after rest).1, (cutAtComma after rest).2)

namespace Leads

variable {place middle after : Enclosure} {text more : List Char} {c : Char}

/-- Nothing leads from a place to itself. -/
theorem nil (place : Enclosure) : Leads place [] place := fun _ => rfl

/-- A character that does not separate leads on to the next place. -/
theorem cons (hc : place ≠ .outside ∨ c ≠ ',') (hnext : place.next c = middle)
    (h : Leads middle text after) : Leads place (c :: text) after := by
  intro rest
  rw [List.cons_append, cutAtComma, if_neg fun hstop => hc.elim (· hstop.1) (· hstop.2), hnext,
    h rest]
  rfl

/-- Two texts lead on one after the other. -/
theorem append (h : Leads place text middle) (h' : Leads middle more after) :
    Leads place (text ++ more) after := by
  intro rest
  rw [List.append_assoc, h, h', List.append_assoc]

/-- Characters that change nothing lead back to their place. -/
theorem of_stays (h : ∀ c ∈ text, place.next c = place ∧ (place ≠ .outside ∨ c ≠ ',')) :
    Leads place text place := by
  induction text with
  | nil => exact nil place
  | cons c cs ih =>
    obtain ⟨hstays, hc⟩ := h c List.mem_cons_self
    exact cons hc hstays (ih fun d hd => h d (List.mem_cons_of_mem c hd))

/-- Names have neither commas nor what opens brackets or quotes. -/
theorem of_names (h : ∀ c ∈ text, isNameChar c = true ∨ c = '.') :
    Leads .outside text .outside := by
  refine of_stays fun c hc => ?_
  have hne : ∀ d, ¬(isNameChar d = true ∨ d = '.') → c ≠ d := by
    rintro d hd rfl
    exact hd (h c hc)
  refine ⟨?_, .inr (hne ',' (by decide))⟩
  rw [Enclosure.next, if_neg (hne '<' (by decide)), if_neg (hne '"' (by decide))]

end Leads

/-- A written address ends outside quotes and has no separator outside them. -/
theorem Iri.IsWellFormed.leads {i : Iri} (h : i.IsWellFormed) :
    Leads .outside i.written.toList .outside := by
  have hinside : Leads .brackets i.text.toList .brackets := by
    refine .of_stays fun c hc => ⟨if_neg ?_, .inl (by decide)⟩
    rintro rfl
    exact absurd (List.all_eq_true.mp h.valid.1 '>' hc) (by decide)
  have hopen : Leads .outside ['<'] .brackets := .cons (.inr (by decide)) rfl (.nil _)
  have hclose : Leads .brackets ['>'] .outside := .cons (.inl (by decide)) rfl (.nil _)
  rw [Iri.written, String.toList_append, String.toList_append]
  exact (hopen.append hinside).append hclose

/-- An encoded character leads back between the quotes, since a quote is behind a backslash. -/
theorem Text.Escape.leads_encodeChar (c : Char) : Leads .quotes (encodeChar c) .quotes := by
  have hplain : ∀ d : Char, d ≠ '"' → d ≠ '\\' → Enclosure.quotes.next d = .quotes := by
    intro d hquote hslash
    rw [Enclosure.next, if_neg hquote, if_neg hslash]
  rcases encodeChar_cases c with ⟨letter, hc, -⟩ | ⟨hc, -⟩ | ⟨hc, hquote, hslash, -⟩
  · rw [hc]
    exact .cons (.inl (by decide)) rfl (.cons (.inl (by decide)) rfl (.nil _))
  · have hdigit : ∀ n, hexDigit (n % 16) ≠ '"' ∧ hexDigit (n % 16) ≠ '\\' := fun n =>
      have hall : ∀ d < 16, hexDigit d ≠ '"' ∧ hexDigit d ≠ '\\' := by decide
      hall _ (Nat.mod_lt n (by decide))
    rw [hc]
    refine .cons (.inl (by decide)) rfl (.cons (.inl (by decide)) rfl ?_)
    refine .of_stays fun d hd => ⟨?_, .inl (by decide)⟩
    simp only [hex4, List.mem_cons, List.not_mem_nil, or_false] at hd
    rcases hd with rfl | rfl | rfl | rfl <;> exact hplain _ (hdigit _).1 (hdigit _).2
  · rw [hc]
    refine .of_stays fun d hd => ⟨?_, .inl (by decide)⟩
    rw [List.mem_singleton.mp hd]
    exact hplain c hquote hslash

/-- A quoted literal ends outside quotes and has no separator outside them. -/
theorem Literal.leads_quoted (l : Literal) : Leads .outside l.quoted.toList .outside := by
  have hencoded : Leads .quotes (Escape.encode l.value.toList) .quotes := by
    rw [Escape.encode]
    induction l.value.toList with
    | nil => exact .nil _
    | cons c cs ih =>
      rw [List.flatMap_cons]
      exact (Escape.leads_encodeChar c).append ih
  have hopen : Leads .outside ['"'] .quotes := .cons (.inr (by decide)) rfl (.nil _)
  have hclose : Leads .quotes ['"'] .outside := .cons (.inl (by decide)) rfl (.nil _)
  simp only [Literal.quoted, String.toList_append, String.toList_ofList, String.reduceToList]
  exact (hopen.append hencoded).append hclose

namespace Term

variable {t t' : Term}

/-- A written term has no comma outside of its brackets and quotes. -/
theorem IsWellFormed.leads (h : t.IsWellFormed) : Leads .outside t.written.toList .outside := by
  cases t with
  | iri i => exact Iri.IsWellFormed.leads h
  | blank b =>
    have hlabel := BlankNode.IsWellFormed.valid h
    rw [Term.written, BlankNode.written, String.toList_append]
    exact (Leads.cons (.inr (by decide)) rfl (.cons (.inr (by decide)) rfl (.nil _))).append
      (.of_names fun c hc => Validity.char_of_isLabel hlabel hc)
  | literal l =>
    rcases Literal.IsWellFormed.kind_cases h with hkind | ⟨tag, hkind, htag, -⟩ |
      ⟨datatype, hkind, hdatatype, -⟩ <;> rw [Term.written, Literal.written, hkind]
    · exact l.leads_quoted
    · rw [String.toList_append, String.toList_append]
      exact (l.leads_quoted.append (.cons (.inr (by decide)) rfl (.nil _))).append
        (.of_names fun c hc => .inl (Validity.isNameChar_of_isLanguageTag htag hc))
    · rw [String.toList_append, String.toList_append]
      exact (l.leads_quoted.append (.cons (.inr (by decide)) rfl (.cons (.inr (by decide)) rfl
        (.nil _)))).append hdatatype.leads

/-- A written term is cut off from what follows a comma behind it. -/
theorem IsWellFormed.cutAtComma_written (h : t.IsWellFormed) {rest : List Char}
    (hrest : ∀ c ∈ rest.head?, c = ',') :
    cutAtComma .outside (t.written.toList ++ rest) = (t.written.toList, rest) := by
  have hend : cutAtComma .outside rest = ([], rest) := by
    cases rest with
    | nil => rfl
    | cons c cs => exact if_pos ⟨rfl, hrest c rfl⟩
  rw [h.leads, hend, List.append_nil]

/-- Terms that are written the same are the same. -/
theorem eq_of_written_eq (h : t.IsWellFormed) (h' : t'.IsWellFormed)
    (heq : t.written.toList = t'.written.toList) : t = t' := by
  have hread := Term.read_written h
  rw [String.toList_inj.mp heq, Term.read_written h'] at hread
  exact (Except.ok.inj hread).symm

end Term

namespace Results

open Eval

/-! ## Rows -/

/-- A name and a term that can be told apart when they are written. -/
def IsBinding (b : String × Term) : Prop := Query.IsPlainName b.1 ∧ b.2.IsWellFormed

/-- A binding as it is written. -/
def bindingText (b : String × Term) : List Char := b.1.toList ++ '=' :: b.2.written.toList

/-- A plain name has no equals sign. -/
theorem equals_notMem_name {name : String} (h : Query.IsPlainName name) : '=' ∉ name.toList :=
  fun hmem => absurd (h '=' hmem) (by decide)

/-- A binding is taken from a text in which nothing or a comma follows it. -/
theorem bindingText_append_inj {b b' : String × Term} (h : IsBinding b) (h' : IsBinding b')
    {rest rest' : List Char} (hrest : ∀ c ∈ rest.head?, c = ',')
    (hrest' : ∀ c ∈ rest'.head?, c = ',')
    (heq : bindingText b ++ rest = bindingText b' ++ rest') : b = b' ∧ rest = rest' := by
  obtain ⟨name, t⟩ := b
  obtain ⟨name', t'⟩ := b'
  simp only [bindingText, List.append_assoc, List.cons_append] at heq
  have hname : name.toList = name'.toList := by
    have hpieces := congrArg (List.splitOn '=') heq
    rw [List.splitOn_append_cons_self_of_not_mem (equals_notMem_name h.1),
      List.splitOn_append_cons_self_of_not_mem (equals_notMem_name h'.1)] at hpieces
    exact (List.cons.inj hpieces).1
  rw [hname] at heq
  have hterm := congrArg (cutAtComma .outside) (List.cons.inj (List.append_cancel_left heq)).2
  rw [h.2.cutAtComma_written hrest, h'.2.cutAtComma_written hrest'] at hterm
  obtain ⟨hwritten, hrest⟩ := Prod.mk.inj hterm
  exact ⟨Prod.ext (String.toList_inj.mp hname) (Term.eq_of_written_eq h.2 h'.2 hwritten), hrest⟩

/-- Bindings as they are written behind others. -/
def moreText (bs : List (String × Term)) : List Char :=
  bs.flatMap fun b => ", ".toList ++ bindingText b

/-- Behind a binding stands a comma or nothing. -/
theorem head?_moreText (bs : List (String × Term)) : ∀ c ∈ (moreText bs).head?, c = ',' := by
  cases bs with
  | nil => exact nofun
  | cons b bs => exact fun c hc => (Option.some.inj hc).symm

/-- Further bindings can be told from their text. -/
theorem moreText_inj {bs bs' : List (String × Term)} (h : ∀ b ∈ bs, IsBinding b)
    (h' : ∀ b ∈ bs', IsBinding b) (heq : moreText bs = moreText bs') : bs = bs' := by
  induction bs generalizing bs' with
  | nil =>
    cases bs' with
    | nil => rfl
    | cons b' bs' => cases heq
  | cons b bs ih =>
    cases bs' with
    | nil => cases heq
    | cons b' bs' =>
      rw [List.forall_mem_cons] at h h'
      obtain ⟨rfl, hmore⟩ := bindingText_append_inj h.1 h'.1 (head?_moreText bs)
        (head?_moreText bs') (List.cons.inj (List.cons.inj heq).2).2
      rw [ih h.2 h'.2 hmore]

/-- The text of a row: its first binding, and the others behind it. -/
def rowText : List (String × Term) → List Char
  | [] => []
  | b :: bs => bindingText b ++ moreText bs

/-- A row is written as its bindings. -/
theorem toList_textRow (columns : List String) (row : Row) :
    (textRow columns row).toList = rowText (bindings columns row) := by
  have hbinding : ∀ b : String × Term, (b.1 ++ "=" ++ b.2.written).toList = bindingText b := by
    intro b
    rw [String.toList_append, String.toList_append, List.append_assoc]
    rfl
  unfold textRow
  cases bindings columns row with
  | nil => rfl
  | cons b bs =>
    rw [List.map_cons, Text.toList_intercalate_cons, hbinding, List.flatMap_map]
    simp only [hbinding]
    rfl

/-- Bindings can be told from their text. -/
theorem rowText_inj {bs bs' : List (String × Term)} (h : ∀ b ∈ bs, IsBinding b)
    (h' : ∀ b ∈ bs', IsBinding b) (heq : rowText bs = rowText bs') : bs = bs' := by
  cases bs with
  | nil =>
    cases bs' with
    | nil => rfl
    | cons b' bs' =>
      rw [rowText, rowText, bindingText, List.append_assoc] at heq
      exact absurd heq.symm (List.append_ne_nil_of_right_ne_nil _ nofun)
  | cons b bs =>
    cases bs' with
    | nil =>
      rw [rowText, rowText, bindingText, List.append_assoc] at heq
      exact absurd heq (List.append_ne_nil_of_right_ne_nil _ nofun)
    | cons b' bs' =>
      rw [List.forall_mem_cons] at h h'
      obtain ⟨rfl, hmore⟩ := bindingText_append_inj h.1 h'.1 (head?_moreText bs)
        (head?_moreText bs') heq
      rw [moreText_inj h.2 h'.2 hmore]

section Rows

variable {columns : List String} {rows rows' : List Row} {row row' : Row}

/-- The bindings of a row of a table are bindings. -/
theorem isBinding_of_mem (h : IsTable columns rows) (hrow : row ∈ rows) :
    ∀ b ∈ bindings columns row, IsBinding b := by
  obtain ⟨value, rfl, hvalue⟩ := h.rows row hrow
  intro b hb
  obtain ⟨hname, ht⟩ := mem_bindings.mp hb
  exact ⟨h.names _ hname, hvalue _ _ ht⟩

/-- Rows of the same columns with the same bindings are the same. -/
theorem eq_of_bindings_eq (h : IsTable columns rows) (hrow : row ∈ rows)
    (h' : IsTable columns rows') (hrow' : row' ∈ rows')
    (heq : bindings columns row = bindings columns row') : row = row' := by
  obtain ⟨value, rfl, -⟩ := h.rows row hrow
  obtain ⟨value', rfl, -⟩ := h'.rows row' hrow'
  refine List.map_congr_left fun name hname => Option.ext fun t => ?_
  have hmem : (name, t) ∈ bindings columns (columns.map value) ↔
      (name, t) ∈ bindings columns (columns.map value') := by rw [heq]
  rw [mem_bindings, mem_bindings] at hmem
  exact ⟨fun ht => (hmem.mp ⟨hname, ht⟩).2, fun ht => (hmem.mpr ⟨hname, ht⟩).2⟩

/-- Rows that are written the same are the same. -/
theorem eq_of_textRow_eq (h : IsTable columns rows) (hrow : row ∈ rows)
    (h' : IsTable columns rows') (hrow' : row' ∈ rows')
    (heq : textRow columns row = textRow columns row') : row = row' := by
  have htext := congrArg String.toList heq
  rw [toList_textRow, toList_textRow] at htext
  exact eq_of_bindings_eq h hrow h' hrow'
    (rowText_inj (isBinding_of_mem h hrow) (isBinding_of_mem h' hrow') htext)

/-- A row stays on its line. -/
theorem newline_notMem_textRow (h : IsTable columns rows) (hrow : row ∈ rows) :
    '\n' ∉ (textRow columns row).toList := by
  rw [textRow, Text.mem_toList_intercalate (by decide)]
  rintro ⟨_, hs, hmem⟩
  obtain ⟨b, hb, rfl⟩ := List.mem_map.mp hs
  obtain ⟨hname, ht⟩ := isBinding_of_mem h hrow b hb
  rw [String.toList_append, String.toList_append, List.mem_append, List.mem_append] at hmem
  rcases hmem with (hmem | hmem) | hmem
  · exact absurd (hname.lt_toNat hmem) (by decide)
  · exact absurd hmem (by decide)
  · exact absurd (ht.le_toNat hmem) (by decide)

/-! ## Tables -/

/-- The lines of a table are its rows. -/
theorem splitOn_writeText (h : IsTable columns rows) (hrows : rows ≠ []) :
    (writeText columns rows).toList.splitOn '\n' =
      rows.map fun row => (textRow columns row).toList := by
  rw [writeText, String.toList_intercalate, List.map_map]
  refine List.splitOn_intercalate '\n' ?_ fun hnil => hrows (List.map_eq_nil_iff.mp hnil)
  intro line hline
  obtain ⟨row, hrow, rfl⟩ := List.mem_map.mp hline
  exact newline_notMem_textRow h hrow

/-- Lists of rows that are written the same, line by line, are the same. -/
theorem eq_of_map_textRow_eq (h : IsTable columns rows) (h' : IsTable columns rows')
    (heq : (rows.map fun row => (textRow columns row).toList) =
      rows'.map fun row => (textRow columns row).toList) : rows = rows' := by
  induction rows generalizing rows' with
  | nil => exact (List.map_eq_nil_iff.mp heq.symm).symm
  | cons row rest ih =>
    cases rows' with
    | nil => cases heq
    | cons row' rest' =>
      obtain ⟨hfirst, hrest⟩ := List.cons.inj heq
      have htail : IsTable columns rest := ⟨h.names, fun r hr => h.rows r (.tail row hr)⟩
      have htail' : IsTable columns rest' := ⟨h'.names, fun r hr => h'.rows r (.tail row' hr)⟩
      rw [eq_of_textRow_eq h List.mem_cons_self h' List.mem_cons_self
        (String.toList_inj.mp hfirst), ih htail htail' hrest]

/-- The row that binds nothing. -/
def unboundRow (columns : List String) : Row := columns.map fun _ => none

/-- A row that binds nothing is written as nothing. -/
theorem textRow_unboundRow (columns : List String) : textRow columns (unboundRow columns) = "" := by
  have hnone : bindings columns (unboundRow columns) = [] :=
    List.eq_nil_iff_forall_not_mem.mpr fun b hb => nomatch (mem_bindings.mp hb).2
  rw [textRow, hnone]
  rfl

/-- One row that binds nothing is written like no row at all. -/
theorem writeText_unboundRow (columns : List String) :
    writeText columns [unboundRow columns] = writeText columns [] := by
  rw [writeText, List.map_singleton, textRow_unboundRow]
  rfl

/-- A table that is written as nothing has no rows, or a single one that binds nothing. -/
theorem eq_of_writeText_eq_nil (h : IsTable columns rows)
    (heq : writeText columns rows = writeText columns []) :
    rows = [] ∨ rows = [unboundRow columns] := by
  by_cases hrows : rows = []
  · exact .inl hrows
  have hunbound : IsTable columns [unboundRow columns] := by
    refine ⟨h.names, fun row hrow => ⟨fun _ => none, List.mem_singleton.mp hrow, ?_⟩⟩
    exact fun _ _ ht => nomatch ht
  rw [← writeText_unboundRow] at heq
  have hlines := congrArg (fun s => s.toList.splitOn '\n') heq
  rw [splitOn_writeText h hrows, splitOn_writeText hunbound (List.cons_ne_nil _ _)] at hlines
  exact .inr (eq_of_map_textRow_eq h hunbound hlines)

/-- Tables with the same columns are written the same when they have the same rows, and besides that
only when one has no rows and the other a single one that binds nothing. -/
theorem writeText_eq_iff (h : IsTable columns rows) (h' : IsTable columns rows') :
    writeText columns rows = writeText columns rows' ↔
      rows = rows' ∨ rows = [] ∧ rows' = [unboundRow columns] ∨
        rows = [unboundRow columns] ∧ rows' = [] := by
  constructor
  · intro heq
    by_cases hrows : rows = []
    · rw [hrows] at heq ⊢
      exact (eq_of_writeText_eq_nil h' heq.symm).imp Eq.symm fun hrow => .inl ⟨rfl, hrow⟩
    by_cases hrows' : rows' = []
    · rw [hrows'] at heq ⊢
      exact (eq_of_writeText_eq_nil h heq).imp_right fun hrow => .inr ⟨hrow, rfl⟩
    have hlines := congrArg (fun s => s.toList.splitOn '\n') heq
    rw [splitOn_writeText h hrows, splitOn_writeText h' hrows'] at hlines
    exact .inl (eq_of_map_textRow_eq h h' hlines)
  · rintro (rfl | ⟨rfl, rfl⟩ | ⟨rfl, rfl⟩)
    · rfl
    · exact (writeText_unboundRow columns).symm
    · exact writeText_unboundRow columns

end Rows

/-! ## Answers -/

/-- The answers to two queries for tables with the same columns, on stores of well-formed triples,
are written as the same text when they have the same rows, and besides that only when one has no
rows and the other a single one that binds nothing. -/
theorem write_text_answer_eq_iff {s s' : Store} (hs : s.HoldsTerms) (hs' : s'.HoldsTerms)
    {text text' : String} {q q' : Query} (hread : Query.read text = .ok q)
    (hread' : Query.read text' = .ok q') {duplicates duplicates' : Query.Duplicates}
    {projection projection' : Query.Projection} (hform : q.form = .select duplicates projection)
    (hform' : q'.form = .select duplicates' projection')
    (hcolumns : Query.columns q = Query.columns q') (ns ns' : Namespaces) :
    ∃ rows rows', execute s q = .ok (.solutions (Query.columns q) rows) ∧
      execute s' q' = .ok (.solutions (Query.columns q) rows') ∧
      (write .text ns (.solutions (Query.columns q) rows) =
          write .text ns' (.solutions (Query.columns q) rows') ↔
        rows = rows' ∨ rows = [] ∧ rows' = [unboundRow (Query.columns q)] ∨
          rows = [unboundRow (Query.columns q)] ∧ rows' = []) := by
  have htable : ∀ {s : Store} {text : String} {q : Query}, s.HoldsTerms → Query.read text = .ok q →
      ∀ {duplicates projection}, q.form = .select duplicates projection →
        ∃ rows, execute s q = .ok (.solutions (Query.columns q) rows) ∧
          IsTable (Query.columns q) rows := by
    intro s text q hs hread duplicates projection hform
    have hterms := answerOf_holdsTerms hs (Query.meets_ingredients hread)
    have hanswer := execute_eq s (Query.read_placed hread)
    unfold answerOf at hterms hanswer
    rw [hform] at hterms hanswer
    exact ⟨_, hanswer, hterms⟩
  obtain ⟨rows, hanswer, hrows⟩ := htable hs hread hform
  obtain ⟨rows', hanswer', hrows'⟩ := htable hs' hread' hform'
  rw [← hcolumns] at hanswer' hrows'
  exact ⟨rows, rows', hanswer, hanswer', writeText_eq_iff hrows hrows'⟩

/-- A query for one text, which has the signs between the bindings of a row in it. -/
def oneText : String :=
  "SELECT ?x ?y WHERE \x7b VALUES (?x ?y) \x7b (\"a\\\", y=\\\"b\" UNDEF) \x7d \x7d"

/-- A query for two texts. -/
def twoTexts : String := "SELECT ?x ?y WHERE \x7b VALUES (?x ?y) \x7b (\"a\" \"b\") \x7d \x7d"

/-- The one text and the two texts are only written the same if they are. -/
theorem write_text_answer_eq_iff_texts :
    ∃ q q' rows rows', Query.read oneText = .ok q ∧ Query.read twoTexts = .ok q' ∧
      Query.columns q = ["x", "y"] ∧ Query.columns q' = ["x", "y"] ∧
      execute (Store.empty ⟨0, 1⟩) q = .ok (.solutions (Query.columns q) rows) ∧
      execute (Store.empty ⟨0, 1⟩) q' = .ok (.solutions (Query.columns q) rows') ∧
      (write .text .empty (.solutions (Query.columns q) rows) =
          write .text .empty (.solutions (Query.columns q) rows') ↔
        rows = rows' ∨ rows = [] ∧ rows' = [unboundRow (Query.columns q)] ∨
          rows = [unboundRow (Query.columns q)] ∧ rows' = []) := by
  have hone : tableColumns? oneText = some ["x", "y"] := by decide +kernel
  have htwo : tableColumns? twoTexts = some ["x", "y"] := by decide +kernel
  obtain ⟨q, duplicates, projection, hread, hform, hcolumns⟩ := exists_of_tableColumns? hone
  obtain ⟨q', duplicates', projection', hread', hform', hcolumns'⟩ := exists_of_tableColumns? htwo
  have hstore := Store.holdsTerms_empty ⟨0, 1⟩
  obtain ⟨rows, rows', hanswer, hanswer', htext⟩ :=
    write_text_answer_eq_iff hstore hstore hread hread' hform hform'
      (hcolumns.trans hcolumns'.symm) .empty .empty
  exact ⟨q, q', rows, rows', hread, hread', hcolumns, hcolumns', hanswer, hanswer', htext⟩

end Results

end RdfStore
