import RdfStore.Proofs.Database.Output
import RdfStore.Proofs.Eval.AnswerTerms
import RdfStore.Proofs.Turtle.NulFree

/-!
# Results without NUL

A caller who takes the output up to its first NUL gets all of it when there is no NUL in it. The
names of columns, IRIs, labels and language tags have none, and the text of a literal is escaped
in JSON, in Turtle and wherever terms are written as such. Comma separated values hold the bare
text, so there a NUL of a literal reaches the output.
-/

set_option autoImplicit false

namespace RdfStore

open Text

/-- A literal in a row of the answer has a NUL in its text. -/
def Eval.Answer.ShowsNul : Eval.Answer → Prop
  | .solutions _ rows => ∃ row ∈ rows, ∃ l, some (.literal l) ∈ row ∧ HasNul l.value
  | .boolean _ | .graph _ => False

/-- A plain name has no NUL. -/
theorem Query.IsPlainName.not_hasNul {name : String} (h : IsPlainName name) : ¬HasNul name :=
  not_hasNul_of_le fun _ hc => Nat.le_of_lt (h.lt_toNat hc)

namespace Results

open Eval

/-! ## JSON -/

namespace Json

/-- Characters outside ASCII are not escaped. -/
theorem escapeChar_of_le {c : Char} (h : 0x80 ≤ c.toNat) : escapeChar c = [c] := by
  have hne : ∀ d : Char, d.toNat < 0x80 → c ≠ d := by
    rintro d hd rfl
    omega
  have hcontrol : ¬c.toNat < 0x20 := by omega
  simp [escapeChar, hne, hcontrol]

/-- Every character of an escape is printable. -/
theorem le_toNat_of_mem_escapeChar {c d : Char} (hd : d ∈ escapeChar c) : 0x20 ≤ d.toNat := by
  rcases Nat.lt_or_ge c.toNat 0x80 with hc | hc
  · have hall : ∀ n < 0x80, ((escapeChar (Char.ofNat n)).all fun d => 0x20 ≤ d.toNat) = true := by
      decide +kernel
    have hescaped := hall c.toNat hc
    rw [Char.ofNat_toNat] at hescaped
    exact le_toNat_of_all hescaped hd
  · rw [escapeChar_of_le hc, List.mem_singleton] at hd
    subst hd
    omega

/-- Every character of a quoted JSON text is printable. -/
theorem le_toNat_of_mem_quote {s : String} {c : Char} (hc : c ∈ quote s) : 0x20 ≤ c.toNat := by
  rw [quote, List.mem_cons, List.mem_append, List.mem_singleton] at hc
  rcases hc with rfl | hc | rfl
  · decide
  · obtain ⟨d, -, hc⟩ := List.mem_flatMap.mp hc
    exact le_toNat_of_mem_escapeChar hc
  · decide

mutual

/-- No control character is written for a JSON value. -/
theorem le_toNat_of_mem_write (j : Json) {c : Char} (hc : c ∈ j.write) : 0x20 ≤ c.toNat := by
  match j with
  | .bool b => cases b <;> exact le_toNat_of_all (by decide) hc
  | .string s => exact le_toNat_of_mem_quote hc
  | .array items =>
    rw [write, List.mem_cons, List.mem_append, List.mem_singleton] at hc
    rcases hc with rfl | hc | rfl
    · decide
    · exact le_toNat_of_mem_writeItems items hc
    · decide
  | .object members =>
    rw [write, List.mem_cons, List.mem_append, List.mem_singleton] at hc
    rcases hc with rfl | hc | rfl
    · decide
    · exact le_toNat_of_mem_writeMembers members hc
    · decide

/-- Every character of the items of a written array is printable. -/
theorem le_toNat_of_mem_writeItems (items : List Json) {c : Char} (hc : c ∈ writeItems items) :
    0x20 ≤ c.toNat := by
  match items with
  | [] => cases hc
  | [item] => exact le_toNat_of_mem_write item hc
  | item :: next :: rest =>
    rw [writeItems, List.mem_append, List.mem_cons] at hc
    rcases hc with hc | rfl | hc
    · exact le_toNat_of_mem_write item hc
    · decide
    · exact le_toNat_of_mem_writeItems (next :: rest) hc
    · nofun

/-- Every character of the members of a written object is printable. -/
theorem le_toNat_of_mem_writeMembers (members : List (String × Json)) {c : Char}
    (hc : c ∈ writeMembers members) : 0x20 ≤ c.toNat := by
  match members with
  | [] => cases hc
  | [(name, value)] =>
    rw [writeMembers, List.mem_append, List.mem_cons] at hc
    rcases hc with hc | rfl | hc
    · exact le_toNat_of_mem_quote hc
    · decide
    · exact le_toNat_of_mem_write value hc
  | (name, value) :: next :: rest =>
    rw [writeMembers, List.mem_append, List.mem_cons, List.mem_append, List.mem_cons] at hc
    rcases hc with hc | rfl | hc | rfl | hc
    · exact le_toNat_of_mem_quote hc
    · decide
    · exact le_toNat_of_mem_write value hc
    · decide
    · exact le_toNat_of_mem_writeMembers (next :: rest) hc
    · nofun

end

/-- The text of a JSON value has no NUL, whatever is in its strings. -/
theorem not_hasNul_text (j : Json) : ¬HasNul j.text := by
  refine not_hasNul_of_le fun c hc => ?_
  rw [text, String.toList_ofList] at hc
  exact le_toNat_of_mem_write j hc

end Json

/-! ## Tables -/

section Tables

variable {columns : List String} {rows : List Row} {row : Row}

/-- A binding of a row is a column with its value. -/
theorem mem_of_mem_bindings {b : String × Term} (h : b ∈ bindings columns row) :
    b.1 ∈ columns ∧ some b.2 ∈ row := by
  obtain ⟨⟨name, value⟩, hentry, hb⟩ := List.mem_filterMap.mp h
  obtain ⟨t, hvalue, rfl⟩ := Option.map_eq_some_iff.mp hb
  obtain rfl : value = some t := hvalue
  exact List.of_mem_zip hentry

/-- A table written as text has no NUL. -/
theorem not_hasNul_writeText (h : IsTable columns rows) : ¬HasNul (writeText columns rows) := by
  refine not_hasNul_intercalate (by decide) fun s hs => ?_
  obtain ⟨row, hrow, rfl⟩ := List.mem_map.mp hs
  refine not_hasNul_intercalate (by decide) fun s hs => ?_
  obtain ⟨b, hb, rfl⟩ := List.mem_map.mp hs
  obtain ⟨hname, hterm⟩ := mem_of_mem_bindings hb
  have hname := (h.names b.1 hname).not_hasNul
  have hterm := (h.isWellFormed hrow hterm).not_hasNul
  exact not_hasNul_append (not_hasNul_append hname (by decide)) hterm

/-- A record of fields without NUL has none. -/
theorem not_hasNul_tsvRecord {fields : List String} (h : ∀ field ∈ fields, ¬HasNul field) :
    ¬HasNul (tsvRecord fields) :=
  not_hasNul_append (not_hasNul_intercalate (by decide) h) (by decide)

/-- A table written as tab-separated values has no NUL. -/
theorem not_hasNul_writeTsv (h : IsTable columns rows) : ¬HasNul (writeTsv columns rows) := by
  have hheader : ¬HasNul (tsvRecord (columns.map fun name => "?" ++ name)) := by
    refine not_hasNul_tsvRecord fun field hfield => ?_
    obtain ⟨name, hname, rfl⟩ := List.mem_map.mp hfield
    exact not_hasNul_append (by decide) (h.names name hname).not_hasNul
  refine not_hasNul_append hheader (not_hasNul_join fun s hs => ?_)
  obtain ⟨row, hrow, rfl⟩ := List.mem_map.mp hs
  refine not_hasNul_tsvRecord fun field hfield => ?_
  obtain ⟨value, hvalue, rfl⟩ := List.mem_map.mp hfield
  cases value with
  | none => exact (by decide : ¬HasNul "")
  | some t => exact (h.isWellFormed hrow hvalue).not_hasNul

/-! ### Comma separated values -/

/-- Quotes around a field and inside it leave the NULs as they are. -/
theorem hasNul_csvField {s : String} : HasNul (csvField s) ↔ HasNul s := by
  unfold csvField
  split
  · -- a quote is written twice, every other character once
    have hchar : ∀ c : Char, '\x00' ∈ (if c = '"' then ['"', '"'] else [c]) ↔ '\x00' = c := by
      intro c
      split
      · rename_i hc
        simp [hc]
      · exact List.mem_singleton
    unfold HasNul
    rw [String.toList_ofList, quotedField, List.mem_cons, List.mem_append, List.mem_flatMap]
    simp [hchar]
  · rfl

/-- The bare text of a well-formed term has a NUL only if the term is a literal. -/
theorem hasNul_bareText {t : Term} (h : t.IsWellFormed) :
    HasNul (csvField (bareText t)) ↔ ∃ l, t = .literal l ∧ HasNul l.value := by
  rw [hasNul_csvField]
  cases t with
  | iri i =>
    refine iff_of_false (Iri.IsWellFormed.not_hasNul h) ?_
    rintro ⟨l, ⟨⟩, -⟩
  | blank b =>
    refine iff_of_false ?_ ?_
    · exact not_hasNul_append (by decide) (BlankNode.IsWellFormed.not_hasNul h)
    · rintro ⟨l, ⟨⟩, -⟩
  | literal l => exact ⟨fun hnul => ⟨l, rfl, hnul⟩, fun ⟨_, heq, hnul⟩ => by cases heq; exact hnul⟩

/-- A record of comma-separated values has a NUL if one of its fields has. -/
theorem hasNul_csvRecord {fields : List String} :
    HasNul (csvRecord fields) ↔ ∃ field ∈ fields, HasNul field := by
  have hend : ¬HasNul "\r\n" := by decide
  rw [csvRecord, hasNul_append, hasNul_intercalate (by decide), or_iff_left hend]

/-- Comma separated values have a NUL when a literal of the table has one, and only then. -/
theorem hasNul_writeCsv (h : IsTable columns rows) :
    HasNul (writeCsv columns rows) ↔ (Answer.solutions columns rows).ShowsNul := by
  have hheader : ¬HasNul (csvRecord columns) := by
    rw [hasNul_csvRecord]
    rintro ⟨name, hname, hnul⟩
    exact (h.names name hname).not_hasNul hnul
  rw [writeCsv, hasNul_append, or_iff_right hheader, hasNul_join]
  constructor
  · rintro ⟨s, hs, hnul⟩
    obtain ⟨row, hrow, rfl⟩ := List.mem_map.mp hs
    obtain ⟨field, hfield, hnul⟩ := hasNul_csvRecord.mp hnul
    obtain ⟨value, hvalue, rfl⟩ := List.mem_map.mp hfield
    cases value with
    | none => exact absurd hnul (by decide : ¬HasNul "")
    | some t =>
      obtain ⟨l, rfl, htext⟩ := (hasNul_bareText (h.isWellFormed hrow hvalue)).mp hnul
      exact ⟨row, hrow, l, hvalue, htext⟩
  · rintro ⟨row, hrow, l, hl, hnul⟩
    refine ⟨_, List.mem_map_of_mem hrow, hasNul_csvRecord.mpr ⟨_, List.mem_map_of_mem hl, ?_⟩⟩
    exact (hasNul_bareText (h.isWellFormed hrow hl)).mpr ⟨l, rfl, hnul⟩

end Tables

/-! ## Answers -/

/-- The text of an answer has a NUL when it is made of comma separated values and a literal among
them has a NUL, and only then. -/
theorem hasNul_write {ns : Namespaces} (hkeys : (ns.entries.map Prod.fst).Nodup) {a : Answer}
    (h : a.HoldsTerms) (format : Format) :
    HasNul (write format ns a) ↔ format = .csv ∧ a.ShowsNul := by
  cases a with
  | solutions columns rows =>
    cases format with
    | text => exact iff_of_false (not_hasNul_writeText h) fun hcsv => nomatch hcsv.1
    | json => exact iff_of_false (Json.not_hasNul_text _) fun hcsv => nomatch hcsv.1
    | csv => exact (hasNul_writeCsv h).trans ⟨fun hshows => ⟨rfl, hshows⟩, And.right⟩
    | tsv => exact iff_of_false (not_hasNul_writeTsv h) fun hcsv => nomatch hcsv.1
  | boolean b =>
    refine iff_of_false ?_ fun hcsv => hcsv.2
    show ¬HasNul (writeBoolean format b)
    unfold writeBoolean
    split
    · exact Json.not_hasNul_text _
    · cases b <;> decide
  | graph triples =>
    exact iff_of_false (Turtle.not_hasNul_write hkeys h) fun hcsv => hcsv.2

end Results

/-! ## What a caller reads -/

/-- The settings name no prefix twice. -/
theorem Settings.nodup_namespaces (s : Settings) :
    (s.namespaces.entries.map Prod.fst).Nodup := by
  have hempty : (Namespaces.empty.entries.map Prod.fst).Nodup := List.nodup_nil
  unfold Settings.namespaces
  split
  · exact Namespaces.nodup_addAll (Namespaces.nodup_addAll hempty _) _
  · exact Namespaces.nodup_addAll hempty _

namespace Database

variable {db : Database} {query : Bytes} {t : String} {q : Query}

/-- Up to the first NUL are all bytes before a NUL if none of them is one. -/
theorem untilNul_append_iff (bytes rest : Bytes) :
    untilNul (bytes ++ 0 :: rest) = bytes ↔ 0 ∉ bytes := by
  constructor
  · intro h hzero
    -- what is taken has no zero in it, so it is shorter than the bytes
    have hall : (untilNul (bytes ++ 0 :: rest)).all (· != 0) = true := List.all_takeWhile
    rw [h] at hall
    exact absurd (List.all_eq_true.mp hall 0 hzero) (by decide)
  · intro h
    have hne : ∀ b ∈ bytes, (b != 0) = true := fun b hb => bne_iff_ne.mpr fun hb0 => h (hb0 ▸ hb)
    show List.takeWhile _ _ = _
    rw [List.takeWhile_append_of_pos hne]
    simp

/-- A caller who takes a buffer up to its first NUL gets the text that was written into it if
there is no NUL in it, and only then. -/
theorem untilNul_filledWith {text : String} {buffer : Bytes}
    (h : text.toUTF8.toList.length < buffer.length) :
    untilNul (filledWith (.ok text) buffer).buffer = text.toUTF8.toList ↔ ¬HasNul text := by
  rw [filledWith_of_lt h, untilNul_append_iff, zero_mem_toUTF8]

/-- A query that is read is answered by well-formed terms, and its answer is written. -/
theorem IsFilled.answerText (hdb : db.IsFilled) (hquery : text .query query = .ok t)
    (hread : Query.read t = .ok q) :
    ∃ a, db.answer t = .ok a ∧ a = Eval.answerOf (Eval.envOf db.store q) q ∧ a.HoldsTerms ∧
      db.answerText query =
        .ok (Results.write db.settings.resultFormat db.settings.namespaces a) := by
  obtain ⟨a, hanswer, hmeaning, hterms⟩ := hdb.answer hread
  refine ⟨a, hanswer, hmeaning, hterms, ?_⟩
  unfold Database.answerText
  rw [hquery]
  show (db.answer t >>= _) = _
  rw [hanswer]
  rfl

/-- Every query that is read has an output, however the database was filled. In no format does it
hold a NUL, but for comma separated values of a literal with a NUL; and a caller who reads the
buffer up to the first NUL gets all of the output, but for those. -/
theorem untilNul_queryInto (hdb : db.IsFilled) (hquery : text .query query = .ok t)
    (hread : Query.read t = .ok q) :
    ∃ a output, db.answer t = .ok a ∧ db.answerText query = .ok output ∧
      output = Results.write db.settings.resultFormat db.settings.namespaces a ∧
      (∀ format, HasNul (Results.write format db.settings.namespaces a) ↔
        format = .csv ∧ a.ShowsNul) ∧
      ∀ buffer : Bytes, output.toUTF8.toList.length < buffer.length →
        (untilNul (db.queryInto query buffer).buffer = output.toUTF8.toList ↔
          ¬(db.settings.resultFormat = .csv ∧ a.ShowsNul)) := by
  obtain ⟨a, hanswer, -, hterms, houtput⟩ := hdb.answerText hquery hread
  have hnul := Results.hasNul_write db.settings.nodup_namespaces hterms
  refine ⟨a, _, hanswer, houtput, rfl, hnul, fun buffer hbuffer => ?_⟩
  rw [← hnul, ← untilNul_filledWith hbuffer, ← houtput]
  rfl

/-! ### A NUL in a literal -/

/-- An empty database whose results are comma separated values. -/
def listing : Database := empty { resultFormat := .csv } 0

/-- A query with a literal in which a NUL is escaped. -/
def escapedNul : String := "SELECT (\"a\\u0000b\" AS ?o) WHERE \x7b \x7d"

/-- The text of the query is UTF-8 and has no NUL of its own. -/
theorem text_escapedNul : text .query escapedNul.toUTF8.toList = .ok escapedNul := by
  have hdecoded : ((text .query escapedNul.toUTF8.toList).toOption == some escapedNul) = true := by
    rw [toList_toUTF8]
    decide +kernel
  cases htext : text .query escapedNul.toUTF8.toList with
  | error e =>
    rw [htext] at hdecoded
    cases hdecoded
  | ok t =>
    rw [htext] at hdecoded
    exact congrArg Except.ok (Option.some.inj (beq_iff_eq.mp hdecoded))

/-- Whether a text is a query, and what the database writes for it is the given output. -/
def isWrittenAs (db : Database) (text output : String) : Bool :=
  match Query.read text with
  | .ok q => Results.write db.settings.resultFormat db.settings.namespaces
      (Eval.answerOf (Eval.envOf db.store q) q) == output
  | .error _ => false

/-- The database is filled by calls. -/
theorem isFilled_listing : listing.IsFilled := ⟨_, _, [], rfl⟩

/-- The answer is written with a NUL in the middle of a field. -/
theorem isWrittenAs_listing : isWrittenAs listing escapedNul "o\r\na\x00b\r\n" = true := by
  decide +kernel

/-- The query is read, and it has an output with what is known of outputs. -/
theorem untilNul_queryInto_escapedNul :
    ∃ q a output, Query.read escapedNul = .ok q ∧ listing.answer escapedNul = .ok a ∧
      listing.answerText escapedNul.toUTF8.toList = .ok output ∧
      (∀ format, HasNul (Results.write format listing.settings.namespaces a) ↔
        format = .csv ∧ a.ShowsNul) ∧
      ∀ buffer : Bytes, output.toUTF8.toList.length < buffer.length →
        (untilNul (listing.queryInto escapedNul.toUTF8.toList buffer).buffer =
          output.toUTF8.toList ↔ ¬a.ShowsNul) := by
  have hwritten := isWrittenAs_listing
  unfold isWrittenAs at hwritten
  split at hwritten
  · rename_i q hread
    obtain ⟨a, output, hanswer, houtput, -, hnul, hbuffer⟩ :=
      untilNul_queryInto isFilled_listing text_escapedNul hread
    refine ⟨q, a, output, hread, hanswer, houtput, hnul, fun buffer hroom => ?_⟩
    exact (hbuffer buffer hroom).trans (not_congr ⟨And.right, fun hshows => ⟨rfl, hshows⟩⟩)
  · cases hwritten

/-- The output of the query has a NUL, and a caller who reads the buffer up to its first NUL gets
a part of the output only. -/
theorem hasNul_answerText_escapedNul :
    listing.IsFilled ∧ (∃ q, Query.read escapedNul = .ok q) ∧
      listing.answerText escapedNul.toUTF8.toList = .ok "o\r\na\x00b\r\n" ∧
      HasNul "o\r\na\x00b\r\n" ∧
      untilNul (listing.queryInto escapedNul.toUTF8.toList (List.replicate 16 0xAA)).buffer =
        "o\r\na".toUTF8.toList := by
  have hwritten := isWrittenAs_listing
  unfold isWrittenAs at hwritten
  split at hwritten
  · rename_i q hread
    obtain ⟨a, -, rfl, -, houtput⟩ := isFilled_listing.answerText text_escapedNul hread
    rw [beq_iff_eq.mp hwritten] at houtput
    refine ⟨isFilled_listing, ⟨q, hread⟩, houtput, by decide, ?_⟩
    have hroom : "o\r\na\x00b\r\n".toUTF8.toList.length <
        (List.replicate 16 (0xAA : UInt8)).length := by
      rw [toList_toUTF8]
      decide
    show untilNul (filledWith (listing.answerText _) _).buffer = _
    rw [houtput, filledWith_of_lt hroom, toList_toUTF8, toList_toUTF8]
    decide +kernel
  · cases hwritten

end Database

end RdfStore
