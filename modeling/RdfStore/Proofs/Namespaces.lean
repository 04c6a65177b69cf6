import RdfStore.Namespaces
import RdfStore.Term.Validity

/-!
# Abbreviations and their namespaces

A split of an IRI comes from a registered entry whose IRI, followed by the local name, is the
IRI that was split. Every prefix is registered once, so an entry is found by its prefix. A local
name has no colon; the namespace of an absolute IRI is therefore absolute itself.
-/

set_option autoImplicit false

namespace RdfStore

open RdfStore.Text

/-! ## Entries -/

/-- An entry is found by its prefix if every prefix stands once. -/
theorem lookup_of_mem {entries : List (String × String)} (hkeys : (entries.map Prod.fst).Nodup)
    {name iri : String} (h : (name, iri) ∈ entries) : entries.lookup name = some iri := by
  induction entries with
  | nil => cases h
  | cons entry rest ih =>
    obtain ⟨key, value⟩ := entry
    rw [List.map_cons, List.nodup_cons] at hkeys
    rw [List.lookup_cons]
    rcases List.mem_cons.mp h with heq | hrest
    · cases heq
      rw [beq_self_eq_true]
    · have hne : name ≠ key := by
        rintro rfl
        exact hkeys.1 (List.mem_map.mpr ⟨(name, iri), hrest, rfl⟩)
      rw [beq_eq_false_iff_ne.mpr hne]
      exact ih hkeys.2 hrest

namespace Namespaces

/-- The prefixes after an entry is put in are this one and those before. -/
theorem mem_keys_insertEntry {name iri x : String} {entries : List (String × String)} :
    x ∈ (insertEntry name iri entries).map Prod.fst ↔ x = name ∨ x ∈ entries.map Prod.fst := by
  induction entries with
  | nil => simp [insertEntry]
  | cons entry rest ih =>
    unfold insertEntry
    split
    · rename_i heq
      rw [List.map_cons, List.map_cons, List.mem_cons, List.mem_cons, heq]
      exact ⟨fun h => Or.inr h, fun h => h.elim Or.inl id⟩
    · rw [List.map_cons, List.map_cons, List.mem_cons, List.mem_cons, ih]
      exact or_left_comm

/-- Putting an entry in keeps every prefix once. -/
theorem nodup_insertEntry (name iri : String) {entries : List (String × String)}
    (h : (entries.map Prod.fst).Nodup) : ((insertEntry name iri entries).map Prod.fst).Nodup := by
  induction entries with
  | nil => exact List.nodup_cons.mpr ⟨List.not_mem_nil, List.nodup_nil⟩
  | cons entry rest ih =>
    rw [List.map_cons, List.nodup_cons] at h
    unfold insertEntry
    split
    · rename_i heq
      rw [List.map_cons, List.nodup_cons]
      exact ⟨heq ▸ h.1, h.2⟩
    · rename_i hne
      rw [List.map_cons, List.nodup_cons, mem_keys_insertEntry]
      exact ⟨fun hmem => hmem.elim hne h.1, ih h.2⟩

/-- Registering prefixes keeps every prefix once. -/
theorem nodup_addAll {ns : Namespaces} (h : (ns.entries.map Prod.fst).Nodup)
    (entries : List (String × String)) : ((ns.addAll entries).entries.map Prod.fst).Nodup := by
  induction entries generalizing ns with
  | nil => exact h
  | cons entry rest ih => exact ih (nodup_insertEntry entry.1 entry.2 h)

/-! ## Splits -/

/-- The longest split is one of the splits. -/
theorem longest_mem {splits : List Split} {best : Option Split} {split : Split}
    (h : splits.foldl longer best = some split) : best = some split ∨ split ∈ splits := by
  induction splits generalizing best with
  | nil => exact Or.inl h
  | cons next rest ih =>
    rcases ih h with hbest | hmem
    · unfold longer at hbest
      split at hbest
      · split at hbest
        · exact Or.inl hbest
        · exact Or.inr (List.mem_cons.mpr (Or.inl (Option.some.inj hbest).symm))
      · exact Or.inr (List.mem_cons.mpr (Or.inl (Option.some.inj hbest).symm))
    · exact Or.inr (List.mem_cons_of_mem next hmem)

/-- What follows a start is the rest of the text. -/
theorem stripStart?_eq_some {start cs rest : List Char} (h : stripStart? start cs = some rest) :
    cs = start ++ rest := by
  induction start generalizing cs with
  | nil => exact Option.some.inj h
  | cons p ps ih =>
    cases cs with
    | nil => cases h
    | cons c cs =>
      unfold stripStart? at h
      split at h
      · rename_i heq
        rw [heq, List.cons_append, ← ih h]
      · cases h

/-- An IRI is split into the IRI of an entry and a simple local name. -/
theorem compactParts?_eq_some {ns : Namespaces} {iri name localName : String}
    (h : ns.compactParts? iri = some (name, localName)) :
    ∃ start, (name, start) ∈ ns.entries ∧ iri = start ++ localName ∧
      isSimpleLocalName localName.toList = true := by
  obtain ⟨split, hlongest, hsplit⟩ := Option.map_eq_some_iff.mp h
  cases hsplit
  rcases longest_mem hlongest with hnone | hmem
  · cases hnone
  obtain ⟨entry, hentry, hby⟩ := List.mem_filterMap.mp hmem
  unfold splitBy? at hby
  split at hby
  · rename_i rest hstrip
    split at hby
    · rename_i hsimple
      cases hby
      refine ⟨entry.2, hentry, ?_, ?_⟩
      · rw [← String.toList_inj, String.toList_append, String.toList_ofList]
        exact stripStart?_eq_some hstrip
      · rw [String.toList_ofList]
        exact hsimple
    · cases hby
  · cases hby

end Namespaces

/-! ## Texts with a colon -/

/-- A text is cut at a colon that no colon comes before. -/
theorem splitAtColon_append {name rest : List Char} (h : ':' ∉ name) :
    splitAtColon (name ++ ':' :: rest) = some (name, rest) := by
  induction name with
  | nil => rfl
  | cons c cs ih =>
    rw [List.mem_cons, not_or] at h
    rw [List.cons_append, splitAtColon, if_neg (Ne.symm h.1), ih h.2, Option.map_some]

namespace Validity

/-- A scheme is a letter and characters of schemes. -/
def IsScheme (cs : List Char) : Prop :=
  ∃ c rest, cs = c :: rest ∧ isAsciiLetter c = true ∧ ∀ d ∈ rest, isSchemeChar d = true

/-- What comes after a scheme comes after its colon. -/
theorem exists_scheme {cs rest : List Char} (h : afterScheme? cs = some rest) :
    ∃ scheme, IsScheme scheme ∧ cs = scheme ++ ':' :: rest := by
  cases cs with
  | nil => cases h
  | cons c cs =>
    rw [afterScheme?] at h
    split at h
    · rename_i hletter
      split at h
      · rename_i hdrop
        cases h
        refine ⟨c :: cs.takeWhile isSchemeChar, ⟨c, _, rfl, hletter, fun d hd => ?_⟩, ?_⟩
        · exact List.all_eq_true.mp List.all_takeWhile d hd
        · rw [List.cons_append, ← hdrop, List.takeWhile_append_dropWhile]
      · cases h
    · cases h

/-- The scheme of an address ends at its colon. -/
theorem afterScheme?_append {scheme : List Char} (h : IsScheme scheme) (rest : List Char) :
    afterScheme? (scheme ++ ':' :: rest) = some rest := by
  obtain ⟨c, cs, rfl, hletter, hchars⟩ := h
  have hdrop : (cs ++ ':' :: rest).dropWhile isSchemeChar = ':' :: rest := by
    rw [List.dropWhile_append_of_pos hchars]
    exact List.dropWhile_cons_of_neg (by decide)
  rw [List.cons_append, afterScheme?, if_pos hletter, hdrop]
  rfl

/-- A text is absolute if it starts with a scheme and a colon. -/
theorem isAbsolute_iff {cs : List Char} :
    isAbsolute cs = true ↔ ∃ scheme tail, IsScheme scheme ∧ cs = scheme ++ ':' :: tail := by
  constructor
  · intro h
    obtain ⟨tail, htail⟩ := Option.isSome_iff_exists.mp h
    obtain ⟨scheme, hscheme, hcs⟩ := exists_scheme htail
    exact ⟨scheme, tail, hscheme, hcs⟩
  · rintro ⟨scheme, tail, hscheme, rfl⟩
    rw [isAbsolute, afterScheme?_append hscheme]
    rfl

/-- A text stays absolute whatever comes after it. -/
theorem isAbsolute_append {cs : List Char} (h : isAbsolute cs = true) (more : List Char) :
    isAbsolute (cs ++ more) = true := by
  obtain ⟨scheme, tail, hscheme, rfl⟩ := isAbsolute_iff.mp h
  exact isAbsolute_iff.mpr ⟨scheme, tail ++ more, hscheme, by simp⟩

/-- A text is absolute if it is absolute with a rest without colons. -/
theorem isAbsolute_of_append {start rest : List Char} (h : isAbsolute (start ++ rest) = true)
    (hrest : ':' ∉ rest) : isAbsolute start = true := by
  obtain ⟨scheme, tail, hscheme, htext⟩ := isAbsolute_iff.mp h
  rcases List.append_eq_append_iff.mp htext with ⟨more, -, rfl⟩ | ⟨more, rfl, hcolon⟩
  · simp at hrest
  · cases more with
    | nil =>
      rw [List.nil_append] at hcolon
      simp [← hcolon] at hrest
    | cons c more =>
      obtain ⟨rfl, -⟩ := List.cons.inj hcolon
      exact isAbsolute_iff.mpr ⟨scheme, more, hscheme, rfl⟩

end Validity

end RdfStore
