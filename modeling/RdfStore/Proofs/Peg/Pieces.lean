import RdfStore.Proofs.Peg.Runs

/-!
# Pieces of a repetition

A run is taken apart into the runs of its parts. What a repetition reads falls into pieces, each of
them read by the item where it stands, and at the rest the item is refused. Between the parts of a
token no blanks are skipped, so the pieces put together are the whole of what is read.
-/

set_option autoImplicit false

namespace RdfStore.Peg

variable {R : Type} {g : Grammar R} {mode : Mode} {cs rest : List Char}
  {nodes : List (Outline R)}

/-! ## Runs of each form -/

/-- A character is read by taking it off the text. -/
theorem Runs.of_char {isMember : Char → Bool}
    (h : Runs g mode (.once (.char isMember)) cs (some (nodes, rest))) :
    nodes = [] ∧ ∃ c, cs = c :: rest ∧ isMember c = true := by
  cases h with
  | char hmember => exact ⟨rfl, _, rfl, hmember⟩

/-- A given character is read by taking it off the text. -/
theorem Runs.of_one {d : Char} (h : Runs g mode (.once (.one d)) cs (some (nodes, rest))) :
    nodes = [] ∧ cs = d :: rest := by
  obtain ⟨hnodes, c, hcs, hc⟩ := h.of_char
  rw [beq_iff_eq] at hc
  exact ⟨hnodes, hc ▸ hcs⟩

/-- A text that was taken off stood in front. -/
theorem eq_append_of_stripText? {chars : List Char} (h : stripText? false chars cs = some rest) :
    cs = chars ++ rest := by
  induction chars generalizing cs with
  | nil => exact Option.some.inj h
  | cons p chars ih =>
    cases cs with
    | nil => cases h
    | cons c cs =>
      rw [stripText?, Bool.false_and, Bool.or_false] at h
      split at h
      · rename_i hc
        rw [ih h, of_decide_eq_true hc, List.cons_append]
      · cases h

/-- Given characters are read by taking them off the text. -/
theorem Runs.of_text {chars : List Char}
    (h : Runs g mode (.once (.text chars)) cs (some (nodes, rest))) :
    nodes = [] ∧ cs = chars ++ rest := by
  cases h with
  | text hstrip => exact ⟨rfl, eq_append_of_stripText? hstrip⟩

/-- A sequence is read one part after the other, with blanks between. -/
theorem Runs.of_seq {first second : Expr R}
    (h : Runs g mode (.once (.seq first second)) cs (some (nodes, rest))) :
    ∃ front back mid, nodes = front ++ back ∧ Runs g mode (.once first) cs (some (front, mid)) ∧
      Runs g mode (.once second) (g.skip mode mid) (some (back, rest)) := by
  cases h with
  | seq hfirst hsecond => exact ⟨_, _, _, rfl, hfirst, hsecond⟩

/-- Inside a token one part comes right after the other. -/
theorem Runs.of_seq_tight {first second : Expr R} (hmode : mode ≠ .words)
    (h : Runs g mode (.once (.seq first second)) cs (some (nodes, rest))) :
    ∃ front back mid, nodes = front ++ back ∧ Runs g mode (.once first) cs (some (front, mid)) ∧
      Runs g mode (.once second) mid (some (back, rest)) := by
  obtain ⟨front, back, mid, hnodes, hfirst, hsecond⟩ := h.of_seq
  rw [Grammar.skip_of_ne hmode] at hsecond
  exact ⟨front, back, mid, hnodes, hfirst, hsecond⟩

/-- A choice is read as its first part, or as its second if the first refuses. -/
theorem Runs.of_choice {first second : Expr R}
    (h : Runs g mode (.once (.choice first second)) cs (some (nodes, rest))) :
    Runs g mode (.once first) cs (some (nodes, rest)) ∨
      Runs g mode (.once first) cs none ∧ Runs g mode (.once second) cs (some (nodes, rest)) := by
  cases h with
  | choice_left hfirst => exact .inl hfirst
  | choice_right hfirst hsecond => exact .inr ⟨hfirst, hsecond⟩

/-- An option is read as its item, or nothing is read. -/
theorem Runs.of_opt {item : Expr R} (h : Runs g mode (.once item.opt) cs (some (nodes, rest))) :
    Runs g mode (.once item) cs (some (nodes, rest)) ∨ nodes = [] ∧ cs = rest := by
  rcases h.of_choice with hitem | ⟨-, hnothing⟩
  · exact .inl hitem
  · cases hnothing with
    | nothing => exact .inr ⟨rfl, rfl⟩

/-- A rule is read as its body, and leaves its node around what the body leaves. -/
theorem Runs.of_rule {r : R} (h : Runs g mode (.once (.rule r)) cs (some (nodes, rest))) :
    ∃ taken inner, cs = taken ++ rest ∧ nodes = g.around r mode taken inner ∧
      Runs g ((g.production r).manner.bodyMode mode) (.once (g.production r).body) cs
        (some (inner, rest)) := by
  cases h with
  | rule hcs hbody => exact ⟨_, _, hcs, rfl, hbody⟩

/-! ## Pieces -/

/-- Pieces that an item reads one after the other up to a rest at which it is refused. -/
inductive Pieces (g : Grammar R) (mode : Mode) (item : Expr R) (rest : List Char) :
    List (List Char) → Prop where
  | stop (h : Runs g mode (.once item) rest none) : Pieces g mode item rest []
  | more {piece : List Char} {pieces : List (List Char)} {nodes : List (Outline R)}
    (h : Runs g mode (.once item) (piece ++ (pieces.flatten ++ rest))
      (some (nodes, pieces.flatten ++ rest)))
    (h' : Pieces g mode item rest pieces) : Pieces g mode item rest (piece :: pieces)

variable {item : Expr R}

/-- A property that every piece has at its place. -/
theorem Pieces.forall {pieces : List (List Char)} (h : Pieces g mode item rest pieces)
    {P : List Char → Prop}
    (hitem : ∀ piece after nodes, Runs g mode (.once item) (piece ++ after) (some (nodes, after)) →
      P piece) : ∀ piece ∈ pieces, P piece := by
  induction h with
  | stop _ => exact fun _ hpiece => absurd hpiece List.not_mem_nil
  | more hrun _ ih =>
    intro piece hpiece
    rcases List.mem_cons.mp hpiece with rfl | hpiece
    · exact hitem _ _ _ hrun
    · exact ih piece hpiece

variable [g.HasBlanks]

/-- What is read is a start of the text. -/
theorem Runs.exists_taken {e : Expr R} (h : Runs g mode (.once e) cs (some (nodes, rest))) :
    ∃ taken, cs = taken ++ rest := by
  obtain ⟨taken, hcs, -⟩ := h.reads
  exact ⟨taken, hcs⟩

/-- What a repetition reads after a first match falls into pieces. -/
theorem Runs.again_pieces (hmode : mode ≠ .words)
    (h : Runs g mode (.again item) cs (some (nodes, rest))) :
    ∃ pieces, cs = pieces.flatten ++ rest ∧ Pieces g mode item rest pieces := by
  generalize htask : Task.again item = task at h
  generalize hresult : some (nodes, rest) = result at h
  induction h generalizing nodes with
  | again_stop hitem _ =>
    cases htask
    cases hresult
    rw [Grammar.skip_of_ne hmode] at hitem
    exact ⟨[], rfl, .stop hitem⟩
  | again hitem _ _ ih =>
    cases htask
    cases hresult
    rw [Grammar.skip_of_ne hmode] at hitem
    obtain ⟨pieces, rfl, hpieces⟩ := ih hmode rfl rfl
    obtain ⟨piece, rfl⟩ := hitem.exists_taken
    exact ⟨piece :: pieces, by rw [List.flatten_cons, List.append_assoc], .more hitem hpieces⟩
  | _ => cases htask

/-- What a repetition reads falls into pieces. -/
theorem Runs.star_pieces (hmode : mode ≠ .words)
    (h : Runs g mode (.once (.star item)) cs (some (nodes, rest))) :
    ∃ pieces, cs = pieces.flatten ++ rest ∧ Pieces g mode item rest pieces := by
  cases h with
  | star_stop hitem => exact ⟨[], rfl, .stop hitem⟩
  | star hitem hmore =>
    obtain ⟨pieces, rfl, hpieces⟩ := hmore.again_pieces hmode
    obtain ⟨piece, rfl⟩ := hitem.exists_taken
    exact ⟨piece :: pieces, by rw [List.flatten_cons, List.append_assoc], .more hitem hpieces⟩

/-- A repeated character class reads characters of the class. -/
theorem Runs.of_star_char {isMember : Char → Bool} (hmode : mode ≠ .words)
    (h : Runs g mode (.once (.star (.char isMember))) cs (some (nodes, rest))) :
    ∃ taken, cs = taken ++ rest ∧ ∀ c ∈ taken, isMember c = true := by
  obtain ⟨pieces, hcs, hpieces⟩ := h.star_pieces hmode
  refine ⟨pieces.flatten, hcs, fun c hc => ?_⟩
  obtain ⟨piece, hpiece, hc⟩ := List.mem_flatten.mp hc
  refine hpieces.forall (P := fun piece => ∀ c ∈ piece, isMember c = true) ?_ piece hpiece c hc
  intro piece after nodes hrun c hc
  obtain ⟨-, d, hd, hmember⟩ := hrun.of_char
  obtain rfl : piece = [d] := List.append_cancel_right hd
  rwa [List.mem_singleton.mp hc]

/-- At least one character of a class. -/
theorem Runs.of_plus_char {isMember : Char → Bool} (hmode : mode ≠ .words)
    (h : Runs g mode (.once (.plus (.char isMember))) cs (some (nodes, rest))) :
    ∃ c taken, cs = c :: taken ++ rest ∧ ∀ d ∈ c :: taken, isMember d = true := by
  obtain ⟨_, _, mid, -, hfirst, hmore⟩ := h.of_seq_tight hmode
  obtain ⟨-, c, rfl, hc⟩ := hfirst.of_char
  obtain ⟨taken, rfl, htaken⟩ := hmore.of_star_char hmode
  refine ⟨c, taken, rfl, fun d hd => ?_⟩
  rcases List.mem_cons.mp hd with rfl | hd
  · exact hc
  · exact htaken d hd

end RdfStore.Peg
