import Mathlib.Data.List.Basic
import RdfStore.Database.Basic
import RdfStore.Proofs.Store.Refinement
import RdfStore.Proofs.Syntax.TokenTerms
import RdfStore.Proofs.Turtle.ReadTerms

/-!
# Calls and their buffers

The calls of a database as one machine. A call that fills a buffer does so wholly or not at
all, and whether it does depends on nothing but the length of the buffer and the text that it
writes. The database after it is the one before, so a caller who was told how much room is
required can make the same call again, also after other calls that only read.
-/

set_option autoImplicit false

namespace RdfStore.Database

/-! ## Calls -/

/-- What a buffer is filled with. -/
inductive Output where
  | answer (query : Bytes)
  | dump

/-- The text that a buffer is filled with. -/
def Output.text (db : Database) : Output → Except Error String
  | .answer query => db.answerText query
  | .dump => .ok db.turtleText

inductive Call where
  | add (subject predicate object : Bytes)
  | contains (subject predicate object : Bytes)
  | load (document : Bytes) (base : Option Bytes)
  | clear
  | count
  | now
  | output (output : Output) (buffer : Bytes)

inductive Reply where
  | isNew (answer : Except Error Bool)
  | isStored (answer : Except Error Bool)
  | added (answer : Except Error Nat)
  | number (n : Nat)
  | filled (answer : Filled)
  | done

/-- The answer of a call that can be refused, and the database after it. -/
def orUnchanged {α : Type} (db : Database) (result : Except Error (α × Database)) :
    Except Error α × Database :=
  match result with
  | .ok (answer, after) => (.ok answer, after)
  | .error e => (.error e, db)

def perform (db : Database) : Call → Reply × Database
  | .add subject predicate object =>
    let (answer, after) := db.orUnchanged (db.add subject predicate object)
    (.isNew answer, after)
  | .contains subject predicate object => (.isStored (db.contains subject predicate object), db)
  | .load document base =>
    let (answer, after) := db.orUnchanged (db.load document base)
    (.added answer, after)
  | .clear => (.done, db.clear)
  | .count => (.number db.count, db)
  | .now => (.number db.now.1, db.now.2)
  | .output (.answer query) buffer => (.filled (db.queryInto query buffer), db)
  | .output .dump buffer => (.filled (db.dumpInto buffer), db)

def performAll (db : Database) : List Call → List Reply × Database
  | [] => ([], db)
  | call :: rest =>
    let first := db.perform call
    let others := first.2.performAll rest
    (first.1 :: others.1, others.2)

/-- A call that only reads. -/
def Call.IsReading : Call → Prop
  | .contains .. | .count | .output .. => True
  | .add .. | .load .. | .clear | .now => False

variable {db : Database} {o : Output} {buffer : Bytes}

/-- After calls that only read the database is the one before. -/
theorem performAll_of_isReading (db : Database) {calls : List Call}
    (h : ∀ call ∈ calls, call.IsReading) : (db.performAll calls).2 = db := by
  induction calls with
  | nil => rfl
  | cons call rest ih =>
    have hfirst : (db.perform call).2 = db := by
      have hreading := h call List.mem_cons_self
      cases call with
      | contains | count => rfl
      | output o buffer => cases o <;> rfl
      | add | load | clear | now => exact hreading.elim
    show ((db.perform call).2.performAll rest).2 = db
    rw [hfirst]
    exact ih fun call hcall => h call (List.mem_cons_of_mem _ hcall)

/-! ## Buffers -/

/-- What filling a buffer does, given the text. -/
def filledWith (output : Except Error String) (buffer : Bytes) : Filled :=
  .of buffer (fill buffer output)

/-- Both kinds of output fill the buffer with their text, and nothing else happens. -/
theorem perform_output (db : Database) (o : Output) (buffer : Bytes) :
    db.perform (.output o buffer) = (.filled (filledWith (o.text db) buffer), db) := by
  cases o <;> rfl

/-- A buffer of no octets has no room for the terminator. -/
theorem filledWith_nil (output : Except Error String) :
    filledWith output [] = ⟨.error .noCapacity, []⟩ := rfl

/-- An error is passed on, and the buffer stays as it was. -/
theorem filledWith_error (e : Error) (hbuffer : buffer ≠ []) :
    filledWith (.error e) buffer = ⟨.error e, buffer⟩ := by
  cases buffer with
  | nil => contradiction
  | cons b rest => rfl

/-- A text goes into a buffer with a NUL behind it. -/
theorem filledWith_of_lt {text : String} (h : text.toUTF8.toList.length < buffer.length) :
    filledWith (.ok text) buffer =
      ⟨.ok text.toUTF8.toList.length,
        text.toUTF8.toList ++ 0 :: buffer.drop (text.toUTF8.toList.length + 1)⟩ := by
  cases buffer with
  | nil => simp at h
  | cons b rest =>
    show Filled.of _ (writeInto text.toUTF8.toList (b :: rest)) = _
    rw [writeInto, if_pos h]
    rfl

/-- A text that leaves no room for the NUL does not go into a buffer. -/
theorem filledWith_of_le {text : String} (h : buffer.length ≤ text.toUTF8.toList.length)
    (hbuffer : buffer ≠ []) :
    filledWith (.ok text) buffer =
      ⟨.error (.bufferTooSmall (text.toUTF8.toList.length + 1) buffer.length), buffer⟩ := by
  cases buffer with
  | nil => contradiction
  | cons b rest =>
    show Filled.of _ (writeInto text.toUTF8.toList (b :: rest)) = _
    rw [writeInto, if_neg (Nat.not_lt.mpr h)]
    rfl

/-! ## Outcomes -/

/-- The outcomes of a call that writes a text into a buffer. -/
structure IsWhole (output : Except Error String) (buffer : Bytes) (f : Filled) : Prop where
  length : f.buffer.length = buffer.length
  /-- What is told to be written is the whole text. -/
  text : ∀ n, f.written = .ok n → ∃ text, output = .ok text ∧ f.buffer.take n = text.toUTF8.toList ∧
    n = text.toUTF8.toList.length
  room : ∀ n, f.written = .ok n → n + 1 ≤ buffer.length
  closed : ∀ n, f.written = .ok n → f.buffer[n]? = some 0
  rest : ∀ n, f.written = .ok n → ∀ i, n < i → f.buffer[i]? = buffer[i]?
  unchanged : ∀ e, f.written = .error e → f.buffer = buffer

/-- Output that reports an error leaves the buffer whole. -/
theorem isWhole_of_error (output : Except Error String) (e : Error) :
    IsWhole output buffer ⟨.error e, buffer⟩ where
  length := rfl
  text _ h := nomatch h
  room _ h := nomatch h
  closed _ h := nomatch h
  rest _ h := nomatch h
  unchanged _ _ := rfl

/-- A text that fits with its terminator is written in full. -/
theorem isWhole_of_lt {text : String} (h : text.toUTF8.toList.length < buffer.length) :
    IsWhole (.ok text) buffer (filledWith (.ok text) buffer) := by
  rw [filledWith_of_lt h]
  generalize hbytes : text.toUTF8.toList = bytes at h
  refine ⟨?_, ?_, ?_, ?_, ?_, ?_⟩
  · simp
    omega
  · rintro n ⟨⟩
    exact ⟨text, rfl, by rw [hbytes, List.take_left], by rw [hbytes]⟩
  · rintro n ⟨⟩
    exact h
  · rintro n ⟨⟩
    simp
  · rintro n ⟨⟩ i hi
    rw [List.getElem?_append_right (by omega), List.getElem?_cons, if_neg (by omega),
      List.getElem?_drop]
    congr 1
    omega
  · rintro e ⟨⟩

/-- A buffer is filled with the whole text or left alone. -/
theorem isWhole_filledWith (output : Except Error String) (buffer : Bytes) :
    IsWhole output buffer (filledWith output buffer) := by
  by_cases hbuffer : buffer = []
  · subst hbuffer
    rw [filledWith_nil]
    exact isWhole_of_error output .noCapacity
  cases output with
  | error e =>
    rw [filledWith_error e hbuffer]
    exact isWhole_of_error _ e
  | ok text =>
    by_cases h : text.toUTF8.toList.length < buffer.length
    · exact isWhole_of_lt h
    · rw [filledWith_of_le (by omega) hbuffer]
      exact isWhole_of_error _ _

/-- An argument is refused because it is empty or not well encoded. -/
theorem text_ne_bufferTooSmall (argument : Argument) (bytes : Bytes) (required capacity : Nat) :
    Database.text argument bytes ≠ .error (.bufferTooSmall required capacity) := by
  unfold Database.text decode
  split
  · nofun
  · cases Text.Utf8.decode _ <;> nofun

/-- An answer is never refused for want of room before it is written. -/
theorem answer_ne_bufferTooSmall (db : Database) (query : String) (required capacity : Nat) :
    db.answer query ≠ .error (.bufferTooSmall required capacity) := by
  unfold answer
  cases Query.read query with
  | error e => nofun
  | ok q =>
    show (Eval.execute db.store q).mapError Error.execution ≠ _
    cases Eval.execute db.store q <;> nofun

/-- Making a text never fails for the size of a buffer. -/
theorem Output.text_ne_bufferTooSmall (db : Database) (o : Output) (required capacity : Nat) :
    o.text db ≠ .error (.bufferTooSmall required capacity) := by
  cases o with
  | dump => nofun
  | answer query =>
    have hargument := Database.text_ne_bufferTooSmall .query query required capacity
    show db.answerText query ≠ _
    unfold answerText
    cases htext : Database.text .query query with
    | error e =>
      rw [htext] at hargument
      exact fun h => hargument (congrArg Except.error (Except.error.inj h))
    | ok query =>
      have hquery := answer_ne_bufferTooSmall db query required capacity
      show (db.answer query >>= _) ≠ _
      cases hanswer : db.answer query with
      | error e =>
        rw [hanswer] at hquery
        exact fun h => hquery (congrArg Except.error (Except.error.inj h))
      | ok a => nofun

/-- A buffer is found too small when the text and its NUL do not fit into it. -/
theorem Output.exists_text_of_bufferTooSmall {required capacity : Nat}
    (h : (filledWith (o.text db) buffer).written = .error (.bufferTooSmall required capacity)) :
    ∃ text, o.text db = .ok text ∧ required = text.toUTF8.toList.length + 1 := by
  have hmade := o.text_ne_bufferTooSmall db required capacity
  by_cases hbuffer : buffer = []
  · subst hbuffer
    cases h
  cases htext : o.text db with
  | error e =>
    rw [htext, filledWith_error e hbuffer] at h
    rw [htext] at hmade
    exact absurd (congrArg Except.error (Except.error.inj h)) hmade
  | ok text =>
    rw [htext] at h
    by_cases hroom : text.toUTF8.toList.length < buffer.length
    · rw [filledWith_of_lt hroom] at h
      cases h
    · rw [filledWith_of_le (by omega) hbuffer] at h
      cases h
      exact ⟨text, rfl, rfl⟩

/-- Filling a buffer with a text succeeds when it is large enough, and only then. -/
theorem written_filledWith_ok (text : String) (buffer : Bytes) :
    (text.toUTF8.toList.length + 1 ≤ buffer.length →
      (filledWith (.ok text) buffer).written = .ok text.toUTF8.toList.length) ∧
    (buffer.length < text.toUTF8.toList.length + 1 →
      ∃ e, (filledWith (.ok text) buffer).written = .error e) := by
  constructor
  · intro h
    rw [filledWith_of_lt h]
  · intro h
    by_cases hbuffer : buffer = []
    · exact ⟨.noCapacity, by rw [hbuffer]; rfl⟩
    · exact ⟨_, by rw [filledWith_of_le (by omega) hbuffer]⟩

/-- A call fills the buffer wholly or leaves it as it is, and in both cases the database is as
before. When the buffer was too small, the call can be made again with any other one, also after
calls that only read: it succeeds if there is as much room as was required and fails if not. -/
theorem perform_output_isWhole (db : Database) (o : Output) (buffer : Bytes) :
    ∃ f, db.perform (.output o buffer) = (.filled f, db) ∧ IsWhole (o.text db) buffer f ∧
      ∀ required capacity, f.written = .error (.bufferTooSmall required capacity) →
        ∀ others : List Call, (∀ call ∈ others, call.IsReading) → ∀ again : Bytes,
          ∃ g, (db.performAll (.output o buffer :: others)).2.perform (.output o again) =
              (.filled g, db) ∧
            (required ≤ again.length → g.written = .ok (required - 1)) ∧
            (again.length < required → ∃ e, g.written = .error e) := by
  refine ⟨_, perform_output db o buffer, isWhole_filledWith _ _, ?_⟩
  intro required capacity hsmall others hothers again
  obtain ⟨text, htext, rfl⟩ := Output.exists_text_of_bufferTooSmall hsmall
  have hsame : (db.performAll (.output o buffer :: others)).2 = db := by
    refine performAll_of_isReading db fun call hcall => ?_
    rcases List.mem_cons.mp hcall with rfl | hcall
    · trivial
    · exact hothers call hcall
  rw [hsame]
  refine ⟨_, perform_output db o again, ?_⟩
  rw [htext]
  exact written_filledWith_ok text again

end RdfStore.Database

/-!
## What databases hold

Every triple of a database was read, so it is well-formed: from three arguments, or from a
document whose blank nodes got names of the store. Calls keep that, together with the coherence
of the store.
-/

namespace RdfStore

namespace Store

/-- A coherent store of well-formed triples. -/
structure HoldsTerms (s : Store) : Prop where
  coherent : s.IsCoherent
  wellFormed : ∀ t, s.contains t = true → t.IsWellFormed

variable {s : Store}

/-- An empty store holds no terms that are not well formed. -/
theorem holdsTerms_empty (clock : Clock) : (empty clock).HoldsTerms where
  coherent := isCoherent_empty clock
  wellFormed t h := by
    rw [contains_empty] at h
    cases h

/-- Giving blank nodes well-formed names keeps a triple well-formed. -/
theorem isWellFormed_mapBlank {f : BlankNode → BlankNode} {t : Triple} (ht : t.IsWellFormed)
    (hf : ∀ node, t.Mentions node → (f node).IsWellFormed) : (t.mapBlank f).IsWellFormed := by
  obtain ⟨subject, predicate, object⟩ := t
  refine ⟨?_, ht.predicate, ?_⟩
  · cases subject with
    | iri => exact ht.subject
    | blank node => exact hf node (Or.inl rfl)
  · cases object with
    | iri | literal => exact ht.object
    | blank node => exact hf node (Or.inr rfl)

/-- Adding a well-formed triple keeps all terms well formed. -/
theorem HoldsTerms.add (hs : s.HoldsTerms) {t : Triple} (ht : t.IsWellFormed) :
    (s.add t).2.HoldsTerms where
  coherent := isCoherent_add hs.coherent t
  wellFormed u hu := by
    rcases (contains_add hs.coherent).mp hu with rfl | hu
    · exact ht
    · exact hs.wellFormed u hu

/-- A batch of well-formed triples is stored as such, since its blank nodes get well-formed
names. -/
theorem HoldsTerms.insertScoped (hs : s.HoldsTerms) {batch : List Triple}
    (hbatch : ∀ t ∈ batch, t.IsWellFormed) : (s.insertScoped batch).2.HoldsTerms where
  coherent := isCoherent_insertScoped hs.coherent batch
  wellFormed u hu := by
    have hmembers : s.HasMembers s.toList.toFinset := by
      intro t
      rw [List.mem_toFinset, mem_toList hs.coherent]
    obtain ⟨f, -, hafter, -, hnamed⟩ := insertScoped_spec hs.coherent hmembers batch
    rcases Finset.mem_union.mp ((hafter u).mp hu) with hold | hnew
    · exact hs.wellFormed u ((hmembers u).mpr hold)
    · obtain ⟨t, ht, rfl⟩ := List.mem_map.mp (List.mem_toFinset.mp hnew)
      refine isWellFormed_mapBlank (hbatch t ht) fun node hnode => ?_
      obtain ⟨tick, n, -, -, hname⟩ := hnamed t ht node hnode
      rw [hname]
      exact isWellFormed_freshLabel tick n

/-- A cleared store holds no terms. -/
theorem HoldsTerms.clear (s : Store) : s.clear.HoldsTerms :=
  ⟨isCoherent_clear s, (holdsTerms_empty s.clock).wellFormed⟩

/-- Reading the clock changes no term of the store. -/
theorem HoldsTerms.now (hs : s.HoldsTerms) : s.now.2.HoldsTerms :=
  ⟨isCoherent_renamed hs.coherent s.clock.advance s.blankCounter, hs.wellFormed⟩

end Store

namespace Database

variable {db : Database}

/-- The triple of three arguments is well-formed. -/
theorem isWellFormed_of_triple {subject predicate object : Bytes} {t : Triple}
    (h : triple subject predicate object = .ok t) : t.IsWellFormed := by
  obtain ⟨s, -, h⟩ := bind_eq_ok h
  obtain ⟨p, -, h⟩ := bind_eq_ok h
  obtain ⟨o, -, h⟩ := bind_eq_ok h
  exact Triple.isWellFormed_of_read (mapError_eq_ok h)

/-- A call that changes the store or is refused keeps what either outcome keeps. -/
theorem holdsTerms_orUnchanged {α : Type} {result : Except Error (α × Database)}
    (hdb : db.store.HoldsTerms) (h : ∀ r, result = .ok r → r.2.store.HoldsTerms) :
    (db.orUnchanged result).2.store.HoldsTerms := by
  cases result with
  | error e => exact hdb
  | ok r => exact h r rfl

/-- Every call keeps the triples well-formed. -/
theorem holdsTerms_perform (hdb : db.store.HoldsTerms) (call : Call) :
    (db.perform call).2.store.HoldsTerms := by
  cases call with
  | add subject predicate object =>
    refine holdsTerms_orUnchanged hdb fun r hr => ?_
    obtain ⟨t, ht, hr⟩ := bind_eq_ok hr
    cases hr
    exact hdb.add (isWellFormed_of_triple ht)
  | load document base =>
    refine holdsTerms_orUnchanged hdb fun r hr => ?_
    obtain ⟨text, -, hr⟩ := bind_eq_ok hr
    obtain ⟨baseText, -, hr⟩ := bind_eq_ok hr
    obtain ⟨loaded, hloaded, hr⟩ := bind_eq_ok hr
    cases hr
    obtain ⟨triples, hread, hstored⟩ := bind_eq_ok (mapError_eq_ok hloaded)
    cases hstored
    exact hdb.insertScoped (Turtle.isWellFormed_of_read hread)
  | clear => exact Store.HoldsTerms.clear db.store
  | now => exact hdb.now
  | contains | count => exact hdb
  | output o buffer => cases o <;> exact hdb

/-- A database that calls have led to from an empty one. -/
def IsFilled (db : Database) : Prop :=
  ∃ settings reading calls, ((empty settings reading).performAll calls).2 = db

/-- Calls keep the triples well-formed. -/
theorem holdsTerms_performAll (hdb : db.store.HoldsTerms) (calls : List Call) :
    (db.performAll calls).2.store.HoldsTerms := by
  induction calls generalizing db with
  | nil => exact hdb
  | cons call rest ih => exact ih (holdsTerms_perform hdb call)

/-- However a database was filled, its store is coherent and its triples are well-formed. -/
theorem IsFilled.holdsTerms (h : db.IsFilled) : db.store.HoldsTerms := by
  obtain ⟨settings, reading, calls, rfl⟩ := h
  exact holdsTerms_performAll (Store.holdsTerms_empty _) calls

end Database

end RdfStore
