import RdfStore.Proofs.Database.Output
import RdfStore.Proofs.Eval.AnswerTerms
import RdfStore.Proofs.Results.JsonTable
import RdfStore.Proofs.Text.Joined

/-!
# Tables come back

Neither a name of a column nor a written term has a tab or a line break in it. So the lines of tab
separated values are the header and the rows, the pieces of a line between tabs are its fields, and
a field is read as the term it was written for. The answer to a table query can therefore be taken
from what is written, as from the JSON of the answer.
-/

set_option autoImplicit false

namespace RdfStore

open Eval

/-- Every term is written with a sign of its kind, also the empty text. -/
theorem Term.written_ne_nil (t : Term) : t.written.toList ≠ [] := by
  rcases t with i | b | ⟨value, kind⟩
  · simp [written, Iri.written]
  · simp [written, BlankNode.written]
  · cases kind <;> simp [written, Literal.written, Literal.quoted]

namespace Results

/-! ## Records -/

/-- A field of a row: empty without a value, and else read as the value. -/
structure IsField (field : List Char) (value : Option Term) : Prop where
  empty : field = [] ↔ value = none
  read : ∀ t, value = some t → Term.read (String.ofList field) = .ok t

/-- What stands between the tabs of a line. -/
abbrev fieldsOf (line : List Char) : List (List Char) := line.splitOn '\t'

/-- Lines that show a table: a header with the signed names, and a line for every row. If there are
columns, every line has a field for each of them. -/
structure IsSheetOf (header : List Char) (lines : List (List Char)) (columns : List String)
    (rows : List Row) : Prop where
  count : lines.length = rows.length
  names : columns ≠ [] → fieldsOf header = columns.map fun name => '?' :: name.toList
  width : columns ≠ [] → ∀ line ∈ lines, (fieldsOf line).length = columns.length
  values : columns ≠ [] →
    List.Forall₂ (fun line row => List.Forall₂ IsField (fieldsOf line) row) lines rows

/-- A text that shows a table between its line breaks, with nothing after the last one. -/
def IsTsvOf (text : String) (columns : List String) (rows : List Row) : Prop :=
  ∃ header lines, text.toList.splitOn '\n' = header :: (lines ++ [[]]) ∧
    IsSheetOf header lines columns rows

/-- Lines that each end with a break are split into the lines, and nothing after them. -/
theorem splitOn_flatMap_append {c : Char} {lines : List (List Char)}
    (h : ∀ line ∈ lines, c ∉ line) :
    (lines.flatMap fun line => line ++ [c]).splitOn c = lines ++ [[]] := by
  induction lines with
  | nil => exact List.splitOn_nil c
  | cons line rest ih =>
    rw [List.flatMap_cons, List.append_assoc, List.singleton_append,
      List.splitOn_append_cons_self_of_not_mem (h line List.mem_cons_self),
      ih fun l hl => h l (List.mem_cons_of_mem _ hl)]
    rfl

/-- The line of a record, without the break at its end. -/
def recordLine (fields : List String) : List Char := (String.intercalate "\t" fields).toList

/-- A field that breaks neither its line nor its record. -/
def IsUnbroken (field : String) : Prop := '\t' ∉ field.toList ∧ '\n' ∉ field.toList

/-- A field of printable characters has no line break and no tab. -/
theorem isUnbroken_of_le {field : String} (h : ∀ c ∈ field.toList, 0x20 ≤ c.toNat) :
    IsUnbroken field :=
  ⟨fun hmem => absurd (h _ hmem) (by decide), fun hmem => absurd (h _ hmem) (by decide)⟩

/-- A record is split into its fields where none has a tab. -/
theorem fieldsOf_recordLine {fields : List String} (hfields : fields ≠ [])
    (h : ∀ field ∈ fields, IsUnbroken field) :
    fieldsOf (recordLine fields) = fields.map String.toList := by
  rw [fieldsOf, recordLine, String.toList_intercalate]
  refine List.splitOn_intercalate '\t' ?_ fun hnil => hfields (List.map_eq_nil_iff.mp hnil)
  intro field hfield
  obtain ⟨s, hs, rfl⟩ := List.mem_map.mp hfield
  exact (h s hs).1

/-- A record has no line break if its fields have none. -/
theorem newline_notMem_recordLine {fields : List String} (h : ∀ field ∈ fields, IsUnbroken field) :
    '\n' ∉ recordLine fields := by
  rw [recordLine, Text.mem_toList_intercalate (by decide)]
  rintro ⟨field, hfield, hmem⟩
  exact (h field hfield).2 hmem

/-! ## Tables -/

def headerFields (columns : List String) : List String := columns.map fun name => "?" ++ name

def rowFields (row : Row) : List String := row.map fun value => value.elim "" Term.written

/-- A table is written as its lines, each with a break after it. -/
theorem toList_writeTsv (columns : List String) (rows : List Row) :
    (writeTsv columns rows).toList =
      (recordLine (headerFields columns) :: rows.map fun row => recordLine (rowFields row)).flatMap
        fun line => line ++ ['\n'] := by
  rw [List.flatMap_cons, List.flatMap_map, writeTsv, String.toList_append, String.toList_join,
    List.flatMap_map, tsvRecord, String.toList_append]
  refine congrArg _ (List.flatMap_congr fun row _ => ?_)
  rw [tsvRecord, String.toList_append]
  rfl

/-- A term that is written, or nothing, is a field for this value. -/
theorem isField_written {value : Option Term} (h : ∀ t, value = some t → t.IsWellFormed) :
    IsField (value.elim "" Term.written).toList value := by
  cases value with
  | none => exact ⟨iff_of_true rfl rfl, nofun⟩
  | some t =>
    refine ⟨iff_of_false t.written_ne_nil nofun, ?_⟩
    rintro _ ⟨⟩
    rw [String.ofList_toList]
    exact Term.read_written (h t rfl)

variable {columns : List String} {rows : List Row}

/-- The fields of the header have no line breaks and no tabs. -/
theorem isUnbroken_headerFields (h : IsTable columns rows) :
    ∀ field ∈ headerFields columns, IsUnbroken field := by
  intro field hfield
  obtain ⟨name, hname, rfl⟩ := List.mem_map.mp hfield
  refine isUnbroken_of_le fun c hc => ?_
  rw [String.toList_append, List.mem_append] at hc
  rcases hc with hc | hc
  · exact le_toNat_of_all (by decide) hc
  · exact Nat.le_of_lt ((h.names name hname).lt_toNat hc)

/-- The fields of a row have no line breaks and no tabs. -/
theorem isUnbroken_rowFields (h : IsTable columns rows) {row : Row} (hrow : row ∈ rows) :
    ∀ field ∈ rowFields row, IsUnbroken field := by
  intro field hfield
  obtain ⟨value, hvalue, rfl⟩ := List.mem_map.mp hfield
  cases value with
  | none => exact ⟨by decide, by decide⟩
  | some t => exact isUnbroken_of_le fun c hc => (h.isWellFormed hrow hvalue).le_toNat hc

section Rows

variable {row : Row}

/-- A row is as long as the header. -/
theorem length_row (h : IsTable columns rows) (hrow : row ∈ rows) :
    row.length = columns.length := by
  obtain ⟨value, rfl, -⟩ := h.rows row hrow
  exact List.length_map _

/-- The record of a row is split into the texts of its values. -/
theorem fieldsOf_row (h : IsTable columns rows) (hrow : row ∈ rows) (hcolumns : columns ≠ []) :
    fieldsOf (recordLine (rowFields row)) =
      row.map fun value => (value.elim "" Term.written).toList := by
  -- without a field the line would have a single empty piece and not none
  have hfields : rowFields row ≠ [] := by
    intro hnil
    have hlength := length_row h hrow
    rw [List.map_eq_nil_iff.mp hnil] at hlength
    exact hcolumns (List.length_eq_zero_iff.mp hlength.symm)
  rw [fieldsOf_recordLine hfields (isUnbroken_rowFields h hrow), rowFields, List.map_map]
  rfl

end Rows

/-- The lines of the header and the rows show the table. -/
theorem isSheetOf_recordLines (h : IsTable columns rows) :
    IsSheetOf (recordLine (headerFields columns))
      (rows.map fun row => recordLine (rowFields row)) columns rows where
  count := List.length_map _
  names hcolumns := by
    have hfields : headerFields columns ≠ [] := fun hnil => hcolumns (List.map_eq_nil_iff.mp hnil)
    rw [fieldsOf_recordLine hfields (isUnbroken_headerFields h), headerFields, List.map_map]
    exact List.map_congr_left fun name _ => String.toList_append ..
  width hcolumns line hline := by
    obtain ⟨row, hrow, rfl⟩ := List.mem_map.mp hline
    rw [fieldsOf_row h hrow hcolumns, List.length_map, length_row h hrow]
  values hcolumns := by
    rw [List.forall₂_map_left_iff, List.forall₂_same]
    intro row hrow
    rw [fieldsOf_row h hrow hcolumns, List.forall₂_map_left_iff, List.forall₂_same]
    exact fun value hvalue => isField_written fun t ht => h.isWellFormed hrow (ht ▸ hvalue)

/-- A table of well-formed terms with plain names is shown by its tab separated values. -/
theorem isTsvOf_writeTsv (h : IsTable columns rows) :
    IsTsvOf (writeTsv columns rows) columns rows := by
  refine ⟨_, _, ?_, isSheetOf_recordLines h⟩
  rw [toList_writeTsv, splitOn_flatMap_append]
  · rfl
  · intro line hline
    rcases List.mem_cons.mp hline with rfl | hline
    · exact newline_notMem_recordLine (isUnbroken_headerFields h)
    · obtain ⟨row, hrow, rfl⟩ := List.mem_map.mp hline
      exact newline_notMem_recordLine (isUnbroken_rowFields h hrow)

end Results

/-! ## Answers -/

namespace Database

/-- However a database was filled, a table query that is read has a table for its answer, and all
of the table comes back from its tab separated values and from its JSON. -/
theorem answer_comesBack {db : Database} (hdb : db.IsFilled) {text : String} {q : Query}
    (hread : Query.read text = .ok q) {duplicates : Query.Duplicates}
    {projection : Query.Projection} (hform : q.form = .select duplicates projection) :
    ∃ columns rows, db.answer text = .ok (.solutions columns rows) ∧
      Results.IsTsvOf (Results.write .tsv db.settings.namespaces (.solutions columns rows))
        columns rows ∧
      Results.write .json db.settings.namespaces (.solutions columns rows) =
        (Results.jsonTable columns rows).text ∧
      Results.tableOf? (Results.jsonTable columns rows) = some (columns, rows) := by
  obtain ⟨a, hanswer, hmeaning, hterms⟩ := hdb.answer hread
  unfold answerOf at hmeaning
  rw [hform] at hmeaning
  subst hmeaning
  refine ⟨_, _, hanswer, Results.isTsvOf_writeTsv hterms, rfl, ?_⟩
  refine Results.tableOf?_jsonTable fun row hrow => ?_
  obtain ⟨value, hvalue, -⟩ := hterms.rows row hrow
  exact ⟨value, hvalue⟩

/-- A database with a text over two lines, of two fields each. -/
def letters : Database :=
  ((empty {} 0).performAll
    [.add "<http://example.org/ann>".toUTF8.toList "<http://example.org/wrote>".toUTF8.toList
      "\"dear\\tbob\\nyours\\tann\"".toUTF8.toList]).2

/-- A query with a computed column and one that stays empty. -/
def shouted : String :=
  "SELECT ?s (UCASE(?o) AS ?loud) ?reply WHERE \x7b ?s ?p ?o OPTIONAL \x7b ?o ?p ?reply \x7d \x7d"

/-- Whether a text is a query for a table. -/
def isTableQuery (text : String) : Bool :=
  match Query.read text with
  | .ok ⟨.select _ _, _, _, _⟩ => true
  | _ => false

/-- The computed texts with tabs and line breaks in them come back. -/
theorem answer_comesBack_shouted :
    letters.IsFilled ∧ ∃ q duplicates projection columns rows, Query.read shouted = .ok q ∧
      q.form = .select duplicates projection ∧
      letters.answer shouted = .ok (.solutions columns rows) ∧
      Results.IsTsvOf (Results.write .tsv letters.settings.namespaces (.solutions columns rows))
        columns rows ∧
      Results.tableOf? (Results.jsonTable columns rows) = some (columns, rows) := by
  have hfilled : letters.IsFilled := ⟨_, _, _, rfl⟩
  have htable : isTableQuery shouted = true := by decide +kernel
  unfold isTableQuery at htable
  split at htable
  · rename_i hread
    obtain ⟨columns, rows, hanswer, htsv, -, hjson⟩ := answer_comesBack hfilled hread rfl
    exact ⟨hfilled, _, _, _, columns, rows, hread, rfl, hanswer, htsv, hjson⟩
  · cases htable

end Database

end RdfStore
