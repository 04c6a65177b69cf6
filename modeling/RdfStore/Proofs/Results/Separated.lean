import RdfStore.Proofs.Eval.AnswerTerms
import RdfStore.Results.Format

/-!
# Comma separated values are read back

A reader of comma separated values takes a text character by character: commas separate fields,
a carriage return and a line feed end a record, and a field between quotes goes on until a quote
that is not doubled, whatever is in it. From what is written for a table it gets the names of the
columns and, for every row, the texts of its values.
-/

set_option autoImplicit false

namespace RdfStore.Results

open Eval

/-! ## A reader -/

/-- Where a reader stands in a record. -/
inductive FieldPlace where
  /-- In front of a field. -/
  | start
  /-- In a field without quotes. -/
  | bare
  /-- Between the quotes of a field. -/
  | quoted
  /-- Behind a quote that ends a field, unless another one follows. -/
  | closed
  /-- Behind the carriage return that ends a record. -/
  | returned
deriving DecidableEq

/-- What a reader knows: its place, the characters of the field that it is in, the fields of the
record before it, and the records before that. -/
structure CsvProgress where
  place : FieldPlace
  field : List Char
  fields : List String
  records : List (List String)

namespace CsvProgress

/-- Adds a character to the field. -/
def put (p : CsvProgress) (place : FieldPlace) (c : Char) : CsvProgress :=
  { p with place, field := p.field ++ [c] }

/-- Ends the field. -/
def endField (p : CsvProgress) (place : FieldPlace) : CsvProgress :=
  ⟨place, [], p.fields ++ [String.ofList p.field], p.records⟩

/-- Reads a character where a field may end: in front of it, in it, or behind its quotes. -/
def stepOutside (p : CsvProgress) (c : Char) : Option CsvProgress :=
  if c = ',' then some (p.endField .start)
  else if c = '\r' then some (p.endField .returned)
  else if c = '\n' then none
  else if c = '"' then
    match p.place with
    | .start => some { p with place := .quoted }
    | .closed => some (p.put .quoted c)
    | _ => none
  else if p.place = .closed then none
  else some (p.put .bare c)

/-- Reads a character, unless it cannot stand there. -/
def step (p : CsvProgress) (c : Char) : Option CsvProgress :=
  match p.place with
  | .quoted => if c = '"' then some { p with place := .closed } else some (p.put .quoted c)
  | .returned => if c = '\n' then some ⟨.start, [], [], p.records ++ [p.fields]⟩ else none
  | _ => p.stepOutside c

/-- The records, if the reader stands behind the end of one or has read nothing. -/
def finish (p : CsvProgress) : Option (List (List String)) :=
  if p.place = .start ∧ p.fields = [] then some p.records else none

end CsvProgress

/-- The records of a text of comma separated values, unless it is none. -/
def readCsv (text : String) : Option (List (List String)) :=
  (text.toList.foldlM CsvProgress.step ⟨.start, [], [], []⟩).bind CsvProgress.finish

example : readCsv "a,\"b\"\"\r\n\"\r\n,c\r\n" = some [["a", "b\"\r\n"], ["", "c"]] := by decide

/-! ## Fields -/

open CsvProgress

variable {fields : List String} {records : List (List String)}

/-- A place where a comma or a carriage return ends the field. -/
def FieldPlace.IsOutside (place : FieldPlace) : Prop := place ≠ .quoted ∧ place ≠ .returned

/-- Between quoted fields a step is one outside quotes. -/
theorem step_of_isOutside {p : CsvProgress} (h : p.place.IsOutside) (c : Char) :
    p.step c = p.stepOutside c := by
  obtain ⟨place, field, fields, records⟩ := p
  cases place with
  | start | bare | closed => rfl
  | quoted => exact absurd rfl h.1
  | returned => exact absurd rfl h.2

/-- Outside quotes a plain character is added to the field. -/
theorem step_plain {place : FieldPlace} (hplace : place = .start ∨ place = .bare)
    (field : List Char) {c : Char} (hc : needsQuotes c = false) :
    step ⟨place, field, fields, records⟩ c = some ⟨.bare, field ++ [c], fields, records⟩ := by
  simp only [needsQuotes, Bool.or_eq_false_iff, beq_eq_false_iff_ne] at hc
  obtain ⟨⟨⟨hquote, hcomma⟩, hnewline⟩, hreturn⟩ := hc
  rcases hplace with rfl | rfl <;> simp [step, stepOutside, put, hquote, hcomma, hnewline, hreturn]

/-- Characters that need no quotes are read one by one. -/
theorem steps_plain (field : List Char) {cs : List Char} (h : ∀ c ∈ cs, needsQuotes c = false) :
    cs.foldlM step ⟨.bare, field, fields, records⟩ =
      some ⟨.bare, field ++ cs, fields, records⟩ := by
  induction cs generalizing field with
  | nil => rw [List.append_nil]; rfl
  | cons c cs ih =>
    rw [List.foldlM_cons, step_plain (Or.inr rfl) field (h c List.mem_cons_self)]
    show cs.foldlM step _ = _
    rw [ih (field ++ [c]) fun d hd => h d (List.mem_cons_of_mem c hd), List.append_assoc]
    rfl

/-- Between quotes every character is read, a quote from two of them. -/
theorem steps_quoted (field cs : List Char) :
    (cs.flatMap fun c => if c = '"' then ['"', '"'] else [c]).foldlM step
        ⟨.quoted, field, fields, records⟩ = some ⟨.quoted, field ++ cs, fields, records⟩ := by
  induction cs generalizing field with
  | nil => rw [List.append_nil]; rfl
  | cons c cs ih =>
    have hc : (if c = '"' then ['"', '"'] else [c]).foldlM step ⟨.quoted, field, fields, records⟩ =
        some ⟨.quoted, field ++ [c], fields, records⟩ := by
      by_cases hquote : c = '"'
      · rw [if_pos hquote, hquote]
        rfl
      · rw [if_neg hquote]
        simp [step, put, hquote]
    rw [List.flatMap_cons, List.foldlM_append, hc]
    show List.foldlM step _ _ = _
    rw [ih, List.append_assoc]
    rfl

/-- A field is read as the text that it was written for, and then it may end. -/
theorem steps_csvField (fields : List String) (records : List (List String)) (s : String) :
    ∃ place : FieldPlace, place.IsOutside ∧
      (csvField s).toList.foldlM step ⟨.start, [], fields, records⟩ =
        some ⟨place, s.toList, fields, records⟩ := by
  unfold csvField
  split
  · refine ⟨.closed, ⟨nofun, nofun⟩, ?_⟩
    rw [String.toList_ofList, quotedField, List.foldlM_cons]
    show List.foldlM step ⟨.quoted, [], fields, records⟩ _ = _
    rw [List.foldlM_append, steps_quoted]
    rfl
  · rename_i hplain
    have hplain : ∀ c ∈ s.toList, needsQuotes c = false := by simpa using hplain
    cases hs : s.toList with
    | nil => exact ⟨.start, ⟨nofun, nofun⟩, rfl⟩
    | cons c cs =>
      rw [hs] at hplain
      refine ⟨.bare, ⟨nofun, nofun⟩, ?_⟩
      rw [List.foldlM_cons, step_plain (Or.inl rfl) [] (hplain c List.mem_cons_self)]
      exact steps_plain [c] fun d hd => hplain d (List.mem_cons_of_mem c hd)

/-- A field and what ends it: the field joins the others of its record. -/
theorem steps_csvField_append (s : String) (rest : List Char) :
    ((csvField s).toList ++ ',' :: rest).foldlM step ⟨.start, [], fields, records⟩ =
        rest.foldlM step ⟨.start, [], fields ++ [s], records⟩ ∧
      ((csvField s).toList ++ '\r' :: rest).foldlM step ⟨.start, [], fields, records⟩ =
        rest.foldlM step ⟨.returned, [], fields ++ [s], records⟩ := by
  obtain ⟨place, hplace, hfield⟩ := steps_csvField fields records s
  constructor
  all_goals
    rw [List.foldlM_append, hfield]
    show List.foldlM step _ _ = _
    rw [List.foldlM_cons, step_of_isOutside hplace]
    show rest.foldlM step ⟨_, [], fields ++ [String.ofList s.toList], records⟩ = _
    rw [String.ofList_toList]

/-! ## Records -/

/-- A record is read as the texts that its fields were written for. -/
theorem steps_csvRecord {values : List String} (h : values ≠ []) :
    (csvRecord (values.map csvField)).toList.foldlM step ⟨.start, [], fields, records⟩ =
      some ⟨.start, [], [], records ++ [fields ++ values]⟩ := by
  induction values generalizing fields with
  | nil => exact absurd rfl h
  | cons value rest ih =>
    cases rest with
    | nil =>
      have hrecord : (csvRecord [csvField value]).toList =
          (csvField value).toList ++ '\r' :: ['\n'] := by
        rw [csvRecord, String.toList_append, String.intercalate_singleton]
        rfl
      rw [List.map_singleton, hrecord, (steps_csvField_append value ['\n']).2]
      rfl
    | cons next rest =>
      have hrecord : (csvRecord ((value :: next :: rest).map csvField)).toList =
          (csvField value).toList ++
            ',' :: (csvRecord ((next :: rest).map csvField)).toList := by
        simp only [csvRecord, String.toList_append, String.toList_intercalate, List.map_cons,
          List.intercalate_cons_cons, List.append_assoc]
        rfl
      rw [hrecord, (steps_csvField_append value _).1, ih (List.cons_ne_nil next rest),
        List.append_assoc]
      rfl

/-- Records that have fields are read one after the other. -/
theorem steps_csvRecords {values : List (List String)} (h : ∀ v ∈ values, v ≠ []) :
    (values.flatMap fun v => (csvRecord (v.map csvField)).toList).foldlM step
        ⟨.start, [], [], records⟩ = some ⟨.start, [], [], records ++ values⟩ := by
  induction values generalizing records with
  | nil => rw [List.append_nil]; rfl
  | cons value rest ih =>
    rw [List.flatMap_cons, List.foldlM_append, steps_csvRecord (h value List.mem_cons_self)]
    show List.foldlM step _ _ = _
    rw [ih fun v hv => h v (List.mem_cons_of_mem value hv), List.append_assoc]
    rfl

/-! ## Tables -/

/-- What a field shows: the text of an IRI, the label of a blank node with its sign, the text of a
literal, and nothing where there is no value. -/
def cellText : Option Term → String
  | none => ""
  | some (.iri node) => node.text
  | some (.blank node) => "_:" ++ node.label
  | some (.literal l) => l.value

/-- The field of a cell is the field of its text. -/
theorem csvField_cellText (value : Option Term) :
    (value.elim "" fun t => csvField (bareText t)) = csvField (cellText value) := by
  rcases value with _ | (i | b | l) <;> rfl

/-- A plain name stands in the header as it is. -/
theorem csvField_of_isPlainName {name : String} (h : Query.IsPlainName name) :
    csvField name = name := by
  have hplain : ∀ c ∈ name.toList, needsQuotes c = false := by
    intro c hc
    have hnone : ∀ d, needsQuotes d = true → Text.isNameChar d = false ∧ d ≠ '?' ∧ d ≠ '$' := by
      intro d hd
      simp only [needsQuotes, Bool.or_eq_true, beq_iff_eq] at hd
      rcases hd with ((rfl | rfl) | rfl) | rfl <;> decide
    by_contra hneeds
    obtain ⟨hchar, hask, hdollar⟩ := hnone c (Bool.eq_true_of_not_eq_false hneeds)
    rcases h c hc with hname | hname | hname
    · rw [hchar] at hname
      cases hname
    · exact hask hname
    · exact hdollar hname
  rw [csvField, if_neg]
  simpa using hplain

/-- A table with plain names and a value or none in each of its columns is read as its names and
the texts of its rows. -/
theorem readCsv_writeCsv {columns : List String} {rows : List Row}
    (hnames : ∀ name ∈ columns, Query.IsPlainName name) (hcolumns : columns ≠ [])
    (hrows : ∀ row ∈ rows, row.length = columns.length) :
    readCsv (writeCsv columns rows) = some (columns :: rows.map (List.map cellText)) := by
  have hwritten : (writeCsv columns rows).toList =
      (columns :: rows.map (List.map cellText)).flatMap
        fun values => (csvRecord (values.map csvField)).toList := by
    have hheader : columns.map csvField = columns :=
      (List.map_congr_left fun name hname => csvField_of_isPlainName (hnames name hname)).trans
        (List.map_id columns)
    rw [writeCsv, String.toList_append, String.toList_join, List.flatMap_cons, hheader,
      List.flatMap_map, List.flatMap_map]
    simp only [List.map_map, csvField_cellText]
    rfl
  have hfields : ∀ values ∈ columns :: rows.map (List.map cellText), values ≠ [] := by
    intro values hvalues
    rcases List.mem_cons.mp hvalues with rfl | hvalues
    · exact hcolumns
    · obtain ⟨row, hrow, rfl⟩ := List.mem_map.mp hvalues
      rw [Ne, List.map_eq_nil_iff, ← List.length_eq_zero_iff, hrows row hrow,
        List.length_eq_zero_iff]
      exact hcolumns
  rw [readCsv, hwritten, steps_csvRecords hfields]
  rfl

/-! ## Answers -/

/-- The answer to a query for a table, on any store: comma separated values from which a reader gets
the names of the columns and a record for every row, with the text of every value in its column. -/
theorem readCsv_answer {text : String} {q : Query} (hread : Query.read text = .ok q)
    {duplicates : Query.Duplicates} {projection : Query.Projection}
    (hform : q.form = .select duplicates projection) (hcolumns : Query.columns q ≠ []) (s : Store)
    (ns : Namespaces) :
    ∃ rows, execute s q = .ok (.solutions (Query.columns q) rows) ∧
      (∀ row ∈ rows, row.length = (Query.columns q).length) ∧
      readCsv (write .csv ns (.solutions (Query.columns q) rows)) =
        some (Query.columns q :: rows.map (List.map cellText)) := by
  have hanswer := execute_resliced s (Query.read_placed hread) hform q.modifiers.limit
    q.modifiers.offset
  have hwidth : ∀ row ∈ (slicedList q.modifiers (wholeTable (envOf s q) q duplicates projection
      (querySolutions (envOf s q) q))).map (shown (slots q) (Query.columns q)),
      row.length = (Query.columns q).length := by
    intro row hrow
    obtain ⟨solution, -, rfl⟩ := List.mem_map.mp hrow
    exact List.length_map _
  have hnames := isPlainName_of_mem_columns (Query.meets_ingredients hread)
  exact ⟨_, hanswer, hwidth, readCsv_writeCsv hnames hcolumns hwidth⟩

/-- A query for texts with each of the characters that need quotes, and for a column without
values. -/
def punctuated : String :=
  "SELECT ?free (\"a,\\\"b\\\"\" AS ?x) (\"\\r\" AS ?y) (\"\\n\\r\\n\" AS ?z) WHERE \x7b " ++
    "VALUES ?free \x7b UNDEF \x7d \x7d"

/-- The columns of the table that a text asks for, if it does. -/
def tableColumns? (text : String) : Option (List String) :=
  match Query.read text with
  | .ok q =>
    match q.form with
    | .select _ _ => some (Query.columns q)
    | _ => none
  | .error _ => none

/-- A text with columns is a query that selects them. -/
theorem exists_of_tableColumns? {text : String} {names : List String}
    (h : tableColumns? text = some names) :
    ∃ q duplicates projection, Query.read text = .ok q ∧
      q.form = .select duplicates projection ∧ Query.columns q = names := by
  unfold tableColumns? at h
  split at h
  · rename_i q hread
    split at h
    · rename_i duplicates projection hform
      exact ⟨q, duplicates, projection, hread, hform, Option.some.inj h⟩
    · cases h
  · cases h

/-- The texts with quotes, commas and line breaks come back. -/
theorem readCsv_answer_punctuated :
    ∃ q rows, Query.read punctuated = .ok q ∧ Query.columns q = ["free", "x", "y", "z"] ∧
      execute (Store.empty ⟨0, 1⟩) q = .ok (.solutions (Query.columns q) rows) ∧
      readCsv (write .csv Namespaces.standard (.solutions (Query.columns q) rows)) =
        some (Query.columns q :: rows.map (List.map cellText)) := by
  have htable : tableColumns? punctuated = some ["free", "x", "y", "z"] := by decide +kernel
  obtain ⟨q, duplicates, projection, hread, hform, hcolumns⟩ := exists_of_tableColumns? htable
  have hsome : Query.columns q ≠ [] := by
    rw [hcolumns]
    exact List.cons_ne_nil _ _
  obtain ⟨rows, hanswer, -, hcsv⟩ :=
    readCsv_answer hread hform hsome (Store.empty ⟨0, 1⟩) Namespaces.standard
  exact ⟨q, rows, hread, hcolumns, hanswer, hcsv⟩

end RdfStore.Results
