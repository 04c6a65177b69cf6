import RdfStore.Proofs.Peg.Places
import RdfStore.Proofs.Syntax.Faults

/-!
# Contents of strings

What the grammars match between the quotes of a string falls into segments, in one way, and decodes
segment by segment. So a content that is matched cannot be decoded only if one of its numbers is
that of a surrogate or lies beyond the last character.
-/

set_option autoImplicit false

namespace RdfStore.Peg

variable {R : Type}

/-- A rule matches a text if a parse, from whatever rule and of whatever text, leaves a node of the
rule with the text. -/
def Grammar.Matches (g : Grammar R) (r : R) (cs : List Char) : Prop :=
  ∃ start text trees root node, g.parse start text = .ok trees ∧ root ∈ trees ∧ Holds root node ∧
    node.rule = r ∧ node.text = cs

/-- A node inside a grown tree is grown. -/
theorem Holds.isGrown {g : Grammar R} {root node : ParseTree R} (h : Holds root node)
    (hroot : IsGrown g root) : IsGrown g node := by
  obtain ⟨_, hin⟩ := h
  exact hin.keeps hroot fun _ => IsGrown.children

/-- What a rule of tokens matches, its body has read. -/
theorem Grammar.Matches.runs {g : Grammar R} [g.HasBlanks] {reads : R → Bool} {rank : R → Nat}
    (hg : g.IsGuarded reads rank) {r : R} {cs : List Char}
    (hmanner : (g.production r).manner = .token) (h : g.Matches r cs) :
    ∃ nodes rest, Runs g .token (.once (g.production r).body) (cs ++ rest)
      (some (nodes, rest)) := by
  obtain ⟨start, text, trees, root, node, hparse, hroot, hholds, rfl, rfl⟩ := h
  obtain ⟨_, hgrows⟩ := g.grows_of_parse hg hparse
  have hgrown := hholds.isGrown (hgrows.isGrown root hroot)
  obtain ⟨r, place, cs, children⟩ := node
  change (g.production r).manner = .token at hmanner
  obtain ⟨rest, hrun⟩ := hgrown.runs .token (by simp [hmanner, Manner.bodyMode])
  exact ⟨_, rest, hrun⟩

end RdfStore.Peg

namespace RdfStore.Syntax

open RdfStore.Peg RdfStore.Text RdfStore.Text.Escape

variable {cs : List Char} {segments : List Segment}

/-! ## Decoding by segments -/

/-- A text falls into segments in this way only. It is refused exactly if one of them gives a number
that no character has, and otherwise each segment is replaced by its character. -/
structure DecodesBy (segments : List Segment) (cs : List Char) : Prop where
  split : IsSplitInto cs segments
  only : ∀ more, IsSplitInto cs more → more = segments
  refused_iff : (∃ error, decodeLiteral cs = .error error) ↔ ∃ s ∈ segments, s.NamesNone
  error_eq : ∀ error, decodeLiteral cs = .error error →
    error = .invalidLiteralEscape (String.ofList cs)
  value_eq : ∀ value, decodeLiteral cs = .ok value →
    value = String.ofList (segments.map Segment.character)

/-- Decoding a literal fails where its text cannot be decoded. -/
theorem exists_error_iff :
    (∃ error, decodeLiteral cs = .error error) ↔ decode .literal cs = none := by
  unfold decodeLiteral
  split
  · rename_i value hvalue
    simp [hvalue]
  · rename_i hnone
    simp [hnone]

/-- A text that is split into segments is decoded by them. -/
theorem decodesBy_of_split (h : IsSplitInto cs segments) : DecodesBy segments cs where
  split := h
  only := fun _ hmore => h.unique hmore
  refused_iff := exists_error_iff.trans h.decode_eq_none_iff
  error_eq := by
    intro error herror
    unfold decodeLiteral at herror
    split at herror
    · cases herror
    · cases herror
      rfl
  value_eq := by
    intro value hvalue
    have hnamed : ∀ s ∈ segments, ¬s.NamesNone := by
      intro s hs hnone
      obtain ⟨error, herror⟩ := (exists_error_iff.trans h.decode_eq_none_iff).mpr ⟨s, hs, hnone⟩
      rw [herror] at hvalue
      cases hvalue
    rw [decodeLiteral, h.decode_eq_some hnamed] at hvalue
    cases hvalue
    rfl

/-! ## What the grammars match -/

/-- The contents of the four forms of strings: between one quote or three, double or single. -/
def stringContents : List Terminal :=
  [.quotedContent, .singleQuotedContent, .longQuotedContent, .longSingleQuotedContent]

/-- What the rule of a content matches falls into segments. -/
theorem exists_decodesBy {R : Type} {g : Grammar R} [g.HasBlanks] {embed : Terminal → R}
    (hg : HasTokens g embed) {reads : R → Bool} {rank : R → Nat} (hguarded : g.IsGuarded reads rank)
    {content : Terminal} (hcontent : content ∈ stringContents)
    (h : g.Matches (embed content) cs) : ∃ segments, DecodesBy segments cs := by
  obtain ⟨t, ht⟩ : ∃ t : Terminal, t.content? = some (content, .literal) := by
    simp only [stringContents, List.mem_cons, List.not_mem_nil, or_false] at hcontent
    rcases hcontent with rfl | rfl | rfl | rfl
    · exact ⟨.quoted, rfl⟩
    · exact ⟨.singleQuoted, rfl⟩
    · exact ⟨.longQuoted, rfl⟩
    · exact ⟨.longSingleQuoted, rfl⟩
  have hmanner : (g.production (embed content)).manner = .token := by
    rw [hg.production]
    cases t <;> cases ht <;> rfl
  obtain ⟨nodes, rest, hrun⟩ := h.runs hguarded hmanner
  rw [hg.production] at hrun
  obtain ⟨segments, hsplit⟩ := (isEscaped_of_content ht hrun).exists_split
  exact ⟨segments, decodesBy_of_split hsplit⟩

/-- Whatever a grammar matches as the content of a string decodes by its segments, and every text
is decoded from its escaped form. -/
theorem contents_decode :
    (∀ content ∈ stringContents, ∀ cs, Turtle.grammar.Matches (Turtle.Symbol.terminal content) cs ∨
      Query.grammar.Matches (Query.Symbol.terminal content) cs →
        ∃ segments, DecodesBy segments cs) ∧
      ∀ value : String, decodeLiteral (Escape.encode value.toList) = .ok value := by
  refine ⟨fun content hcontent cs hmatches => ?_, decodeLiteral_encode⟩
  rcases hmatches with hturtle | hquery
  · exact exists_decodesBy Turtle.hasTokens Turtle.isGuarded_grammar hcontent hturtle
  · exact exists_decodesBy Query.hasTokens Query.isGuarded_grammar hcontent hquery

/-- Two backslashes, a letter by its number and as it is, a quote and another backslash. -/
def slashes : List Char := "\\\\\\\\\\u00E9é\"\\\\".toList

/-- The content can stand between long quotes, is split into its segments and decoded by them. -/
theorem contents_decode_slashes : .longQuotedContent ∈ stringContents ∧
    Turtle.grammar.Matches (Turtle.Symbol.terminal .longQuotedContent) slashes ∧
      (∃ segments, DecodesBy segments slashes) ∧
        decodeLiteral slashes = .ok "\\\\éé\"\\" := by
  have hmem : Terminal.longQuotedContent ∈ stringContents := by decide
  have hparse : Turtle.grammar.parse (Turtle.Symbol.terminal .longQuoted)
      ("\"\"\"".toList ++ slashes ++ "\"\"\"".toList) =
        .ok [.node (Turtle.Symbol.terminal .longQuoted) 0
          ("\"\"\"".toList ++ slashes ++ "\"\"\"".toList)
          [.node (Turtle.Symbol.terminal .longQuotedContent) 3 slashes []]] := rfl
  have hmatches : Turtle.grammar.Matches (Turtle.Symbol.terminal .longQuotedContent) slashes :=
    ⟨_, _, _, _, _, hparse, List.mem_cons_self, (holds_self _).of_child List.mem_cons_self, rfl,
      rfl⟩
  exact ⟨hmem, hmatches, contents_decode.1 _ hmem _ (.inl hmatches), rfl⟩

end RdfStore.Syntax
