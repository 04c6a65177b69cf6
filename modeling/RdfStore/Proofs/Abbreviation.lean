import Mathlib.Data.List.Basic
import Mathlib.Data.List.Induction
import RdfStore.Proofs.Namespaces

/-!
# The longest namespace

A table of namespaces is what a history of registrations leaves of them: every prefix has the IRI
of its last registration and the place of its first one. Of the splits of a text that the table
allows the one with the longest namespace is taken, and of equally long ones the last. The compact
form that it gives is expanded to the text again, unless the prefix has a colon of its own.
-/

set_option autoImplicit false

namespace RdfStore.Namespaces

open RdfStore.Text

/-! ## Registrations -/

variable {calls : List (String × String)} {name iri : String}

/-- The last registration of a prefix is one of an IRI. -/
def IsRegistered (calls : List (String × String)) (name iri : String) : Prop :=
  ∃ before after, calls = before ++ (name, iri) :: after ∧ name ∉ after.map Prod.fst

/-- The place of a prefix among the registrations, which is that of its first one. -/
def place (calls : List (String × String)) (name : String) : Nat :=
  (calls.map Prod.fst).idxOf name

/-- A registered prefix has been named in one of the calls. -/
theorem IsRegistered.mem (h : IsRegistered calls name iri) : name ∈ calls.map Prod.fst := by
  obtain ⟨before, after, rfl, -⟩ := h
  simp

/-- The last registration replaces earlier ones of its prefix and no others. -/
theorem isRegistered_concat {call : String × String} :
    IsRegistered (calls ++ [call]) name iri ↔
      (name, iri) = call ∨ call.1 ≠ name ∧ IsRegistered calls name iri := by
  constructor
  · rintro ⟨before, after, hcalls, hafter⟩
    rcases List.eq_nil_or_concat' after with rfl | ⟨after, last, rfl⟩
    · exact .inl (List.append_singleton_inj.mp hcalls).2.symm
    · rw [← List.cons_append, ← List.append_assoc] at hcalls
      obtain ⟨rfl, rfl⟩ := List.append_singleton_inj.mp hcalls
      rw [List.map_append, List.mem_append, not_or] at hafter
      refine .inr ⟨?_, before, after, rfl, hafter.1⟩
      rintro rfl
      exact hafter.2 List.mem_cons_self
  · rintro (rfl | ⟨hne, before, after, rfl, hafter⟩)
    · exact ⟨calls, [], rfl, List.not_mem_nil⟩
    · refine ⟨before, after ++ [call], by simp, ?_⟩
      rw [List.map_append, List.mem_append, not_or]
      exact ⟨hafter, fun h => hne (List.mem_singleton.mp h).symm⟩

/-- One more call adds its prefix to what the calls before it made. -/
theorem addAll_concat (ns : Namespaces) (call : String × String) :
    ns.addAll (calls ++ [call]) = (ns.addAll calls).add call.1 call.2 := List.foldl_concat ..

/-- A new prefix goes to the end, a known one stays where it is. -/
theorem keys_insertEntry (entries : List (String × String)) :
    (insertEntry name iri entries).map Prod.fst =
      if name ∈ entries.map Prod.fst then entries.map Prod.fst
      else entries.map Prod.fst ++ [name] := by
  induction entries with
  | nil => rfl
  | cons entry rest ih =>
    unfold insertEntry
    by_cases hsame : entry.1 = name
    · rw [if_pos hsame, if_pos (by simp [hsame]), List.map_cons, List.map_cons, hsame]
    · have hmem : name ∈ (entry :: rest).map Prod.fst ↔ name ∈ rest.map Prod.fst := by
        rw [List.map_cons, List.mem_cons, or_iff_right (Ne.symm hsame)]
      rw [if_neg hsame, List.map_cons, ih, ite_congr (propext hmem) (fun _ => rfl) fun _ => rfl]
      split <;> rfl

/-- The entry that is put in takes the place of those with its prefix. -/
theorem mem_insertEntry {entries : List (String × String)} (h : (entries.map Prod.fst).Nodup)
    {entry : String × String} :
    entry ∈ insertEntry name iri entries ↔
      entry = (name, iri) ∨ entry.1 ≠ name ∧ entry ∈ entries := by
  induction entries with
  | nil => simp [insertEntry]
  | cons first rest ih =>
    rw [List.map_cons, List.nodup_cons] at h
    unfold insertEntry
    split
    · rename_i hsame
      have hrest : entry ∈ rest → entry.1 ≠ name := by
        rintro hmem rfl
        exact h.1 (hsame ▸ List.mem_map_of_mem hmem)
      rw [List.mem_cons, List.mem_cons]
      constructor
      · exact Or.imp_right fun hmem => ⟨hrest hmem, .inr hmem⟩
      · rintro (heq | ⟨hne, rfl | hmem⟩)
        · exact .inl heq
        · exact absurd hsame hne
        · exact .inr hmem
    · rename_i hne
      rw [List.mem_cons, List.mem_cons, ih h.2]
      constructor
      · rintro (rfl | heq | ⟨hother, hmem⟩)
        · exact .inr ⟨hne, .inl rfl⟩
        · exact .inl heq
        · exact .inr ⟨hother, .inr hmem⟩
      · rintro (heq | ⟨hother, heq | hmem⟩)
        · exact .inr (.inl heq)
        · exact .inl heq
        · exact .inr (.inr ⟨hother, hmem⟩)

/-- However often a prefix is added, it has one entry. -/
theorem nodup_keys (calls : List (String × String)) :
    ((empty.addAll calls).entries.map Prod.fst).Nodup :=
  nodup_addAll (show (empty.entries.map Prod.fst).Nodup from List.nodup_nil) calls

/-- The prefixes of the entries are those that were registered. -/
theorem mem_keys :
    name ∈ (empty.addAll calls).entries.map Prod.fst ↔ name ∈ calls.map Prod.fst := by
  induction calls using List.reverseRecOn with
  | nil => exact Iff.rfl
  | append_singleton calls call ih =>
    rw [addAll_concat, List.map_append, List.mem_append, ← ih, or_comm, List.map_singleton,
      List.mem_singleton]
    exact mem_keys_insertEntry

/-- The entries are the registered prefixes with their IRIs. -/
theorem mem_entries : (name, iri) ∈ (empty.addAll calls).entries ↔ IsRegistered calls name iri := by
  induction calls using List.reverseRecOn with
  | nil => exact ⟨nofun, fun ⟨before, _, h, _⟩ => by cases before <;> cases h⟩
  | append_singleton calls call ih =>
    rw [addAll_concat, isRegistered_concat, ← ih]
    exact (mem_insertEntry (nodup_keys calls)).trans (or_congr_right (and_congr_left' ne_comm))

/-- Prefixes in the order of their registration, each once. -/
def AreInOrder (calls : List (String × String)) (names : List String) : Prop :=
  names.Pairwise fun a b => place calls a < place calls b

/-- The entries stand in the order of registration. -/
theorem areInOrder_keys (calls : List (String × String)) :
    AreInOrder calls ((empty.addAll calls).entries.map Prod.fst) := by
  induction calls using List.reverseRecOn with
  | nil => exact .nil
  | append_singleton calls call ih =>
    have hplace : ∀ {name}, name ∈ (empty.addAll calls).entries.map Prod.fst →
        place (calls ++ [call]) name = place calls name := by
      intro name hname
      unfold place
      rw [List.map_append, List.idxOf_append_of_mem (mem_keys.mp hname)]
    have hbefore : AreInOrder (calls ++ [call]) ((empty.addAll calls).entries.map Prod.fst) := by
      refine List.Pairwise.imp_of_mem (fun {a b} ha hb hlt => ?_) ih
      rwa [hplace ha, hplace hb]
    rw [addAll_concat]
    unfold add
    rw [keys_insertEntry]
    split
    · exact hbefore
    · rename_i hnew
      refine List.pairwise_append.mpr ⟨hbefore, List.pairwise_singleton .., fun a ha b hb => ?_⟩
      obtain rfl := List.mem_singleton.mp hb
      rw [hplace ha]
      unfold place
      rw [List.map_append, List.idxOf_append_of_notMem (mem_keys.not.mp hnew)]
      exact Nat.lt_add_right _ (List.idxOf_lt_length_of_mem (mem_keys.mp ha))

/-! ## Splits -/

/-- The local names of compact forms: empty, or a letter of ASCII or `_` with letters, digits, `_`
and `-` after it. -/
def IsSimpleName (cs : List Char) : Prop :=
  (∀ c ∈ cs.head?, c.isAlpha ∨ c = '_') ∧ ∀ c ∈ cs, c.isAlphanum ∨ c = '_' ∨ c = '-'

/-- A text is split into the namespace of a registered prefix and a local name. -/
structure IsSplit (calls : List (String × String)) (iri name start localName : String) : Prop where
  registered : IsRegistered calls name start
  text : start ++ localName = iri
  simple : IsSimpleName localName.toList

/-- A split at a longest namespace; of equally long ones it is the last. -/
structure IsLongestSplit (calls : List (String × String)) (iri name start localName : String) :
    Prop extends IsSplit calls iri name start localName where
  longest : ∀ {name' start' localName'}, IsSplit calls iri name' start' localName' →
    start'.length ≤ start.length
  last : ∀ {name' start' localName'}, IsSplit calls iri name' start' localName' →
    start'.length = start.length → place calls name' ≤ place calls name

variable {start localName name' start' localName' : String}

/-- The letters of `Char.isAlpha` are the ASCII letters. -/
theorem isAlpha_eq (c : Char) : c.isAlpha = isAsciiLetter c := by
  have hupper : c.isUpper = (decide (c.val ≥ 'A'.val) && decide (c.val ≤ 'Z'.val)) :=
    Bool.decide_and _ _
  show (c.isUpper || c.isLower) = _
  rw [hupper]
  rfl

/-- The letters and digits of `Char.isAlphanum` are those of ASCII. -/
theorem isAlphanum_eq (c : Char) : c.isAlphanum = isAsciiAlphanumeric c := by
  show (c.isAlpha || isAsciiDigit c) = _
  rw [isAlpha_eq]
  rfl

/-- The test of simple names decides what a simple name is. -/
theorem isSimpleLocalName_iff {cs : List Char} : isSimpleLocalName cs = true ↔ IsSimpleName cs := by
  simp only [IsSimpleName, isAlpha_eq, isAlphanum_eq]
  cases cs with
  | nil => simp [isSimpleLocalName]
  | cons c rest =>
    have hfirst : isAsciiLetter c = true ∨ c = '_' →
        isAsciiAlphanumeric c = true ∨ c = '_' ∨ c = '-' :=
      Or.imp (fun h => by simp [isAsciiAlphanumeric, h]) .inl
    simp only [isSimpleLocalName, Bool.and_eq_true, Bool.or_eq_true, beq_iff_eq, List.all_eq_true,
      List.head?_cons, Option.mem_some_iff, forall_eq', List.forall_mem_cons, or_assoc]
    exact ⟨fun ⟨hc, hrest⟩ => ⟨hc, hfirst hc, hrest⟩, fun ⟨hc, _, hrest⟩ => ⟨hc, hrest⟩⟩

/-- The beginning of a text is taken off it. -/
theorem stripStart?_append (start rest : List Char) :
    stripStart? start (start ++ rest) = some rest := by
  induction start with
  | nil => rfl
  | cons c start ih => rw [List.cons_append, stripStart?, if_pos rfl, ih]

/-- An entry splits a text into its namespace and a local name. -/
theorem splitBy?_eq_some {entry : String × String} {split : Split} :
    splitBy? iri.toList entry = some split ↔
      ∃ localName, entry.2 ++ localName = iri ∧ IsSimpleName localName.toList ∧
        split = ⟨entry.1, entry.2.utf8ByteSize, localName⟩ := by
  constructor
  · intro h
    unfold splitBy? at h
    split at h
    · rename_i rest hstrip
      split at h
      · rename_i hsimple
        cases h
        refine ⟨String.ofList rest, ?_, ?_, rfl⟩
        · rw [← String.toList_inj, String.toList_append, String.toList_ofList]
          exact (stripStart?_eq_some hstrip).symm
        · rw [String.toList_ofList]
          exact isSimpleLocalName_iff.mp hsimple
      · cases h
    · cases h
  · rintro ⟨localName, rfl, hsimple, rfl⟩
    rw [splitBy?, String.toList_append, stripStart?_append]
    dsimp only
    rw [if_pos (isSimpleLocalName_iff.mpr hsimple), String.ofList_toList]

/-- Of two parts with which a text starts, the one with more bytes has more characters. -/
theorem utf8ByteSize_le_iff (h : start ++ localName = iri) (h' : start' ++ localName' = iri) :
    start'.utf8ByteSize ≤ start.utf8ByteSize ↔ start'.length ≤ start.length := by
  have hboth : (start ++ localName).toList = (start' ++ localName').toList := by rw [h, h']
  rw [String.toList_append, String.toList_append] at hboth
  rcases List.append_eq_append_iff.mp hboth with ⟨more, hmore, -⟩ | ⟨more, hmore, -⟩
  · -- the second part goes on where the first one ends
    have hstart : start' = start ++ String.ofList more := by
      rw [← String.toList_inj, String.toList_append, String.toList_ofList, hmore]
    have hempty : (String.ofList more).utf8ByteSize = 0 ↔ (String.ofList more).length = 0 := by
      rw [String.utf8ByteSize_eq_zero_iff, String.length_eq_zero_iff]
    rw [hstart, String.utf8ByteSize_append, String.length_append]
    omega
  · have hstart : start = start' ++ String.ofList more := by
      rw [← String.toList_inj, String.toList_append, String.toList_ofList, hmore]
    rw [hstart, String.utf8ByteSize_append, String.length_append]
    omega

/-- Of some splits the last of the longest is taken. -/
theorem longest_spec (splits : List Split) :
    (splits = [] ∧ splits.foldl longer none = none) ∨
      ∃ before split after, splits.foldl longer none = some split ∧
        splits = before ++ split :: after ∧ (∀ s ∈ before, s.size ≤ split.size) ∧
        ∀ s ∈ after, s.size < split.size := by
  induction splits using List.reverseRecOn with
  | nil => exact .inl ⟨rfl, rfl⟩
  | append_singleton splits next ih =>
    right
    rw [List.foldl_concat]
    rcases ih with ⟨rfl, -⟩ | ⟨before, split, after, hbest, rfl, hbefore, hafter⟩
    · exact ⟨[], next, [], rfl, rfl, nofun, nofun⟩
    rw [hbest]
    by_cases hlt : next.size < split.size
    · refine ⟨before, split, after ++ [next], if_pos hlt, by simp, hbefore, ?_⟩
      rw [List.forall_mem_append, List.forall_mem_singleton]
      exact ⟨hafter, hlt⟩
    · refine ⟨before ++ split :: after, next, [], if_neg hlt, rfl, ?_, nofun⟩
      rw [List.forall_mem_append, List.forall_mem_cons]
      have hle : split.size ≤ next.size := Nat.le_of_not_lt hlt
      exact ⟨fun s hs => Nat.le_trans (hbefore s hs) hle, hle,
        fun s hs => Nat.le_trans (Nat.le_of_lt (hafter s hs)) hle⟩

/-- An entry that stands before another was registered before it. -/
theorem place_lt {before after : List (String × String)} {entry other : String × String}
    (h : (empty.addAll calls).entries = before ++ entry :: after) (hother : other ∈ after) :
    place calls entry.1 < place calls other.1 := by
  have horder := areInOrder_keys calls
  rw [h, AreInOrder, List.map_append, List.map_cons] at horder
  obtain ⟨-, hrest, -⟩ := List.pairwise_append.mp horder
  exact (List.pairwise_cons.mp hrest).1 _ (List.mem_map_of_mem hother)

/-- What is taken is a split at a longest namespace, the last one. -/
theorem isLongestSplit_of_compactParts?
    (h : (empty.addAll calls).compactParts? iri = some (name, localName)) :
    ∃ start, IsLongestSplit calls iri name start localName := by
  obtain ⟨taken, htaken, hparts⟩ := Option.map_eq_some_iff.mp h
  cases hparts
  rcases longest_spec ((empty.addAll calls).entries.filterMap (splitBy? iri.toList)) with
    ⟨-, hnone⟩ | ⟨before, split, after, hbest, hsplits, hbefore, hafter⟩
  · rw [hnone] at htaken
    cases htaken
  obtain rfl : split = taken := Option.some.inj (hbest.symm.trans htaken)
  obtain ⟨early, late, hentries, rfl, hlate⟩ := List.filterMap_eq_append_iff.mp hsplits
  obtain ⟨idle, entry, rest, rfl, hidle, hentry, rfl⟩ := List.filterMap_eq_cons_iff.mp hlate
  obtain ⟨localName, htext, hsimple, rfl⟩ := splitBy?_eq_some.mp hentry
  have hmem : entry ∈ (empty.addAll calls).entries := by
    rw [hentries]
    simp
  rw [← List.append_assoc] at hentries
  -- another split is as long at most, and if it is as long it does not come after the one taken
  have hother : ∀ {name' start' localName'}, IsSplit calls iri name' start' localName' →
      start'.utf8ByteSize ≤ entry.2.utf8ByteSize ∧
        (start'.utf8ByteSize = entry.2.utf8ByteSize → place calls name' ≤ place calls entry.1) := by
    intro name' start' localName' hsplit
    have hby : splitBy? iri.toList (name', start') =
        some ⟨name', start'.utf8ByteSize, localName'⟩ :=
      splitBy?_eq_some.mpr ⟨localName', hsplit.text, hsplit.simple, rfl⟩
    have hin := mem_entries.mpr hsplit.registered
    rw [hentries, List.mem_append, List.mem_append, List.mem_cons] at hin
    rcases hin with (hin | hin) | rfl | hin
    · refine ⟨hbefore _ (List.mem_filterMap.mpr ⟨_, hin, hby⟩), fun _ => ?_⟩
      obtain ⟨front, back, rfl⟩ := List.append_of_mem hin
      rw [List.append_assoc, List.append_assoc, List.cons_append] at hentries
      have hlater : entry ∈ back ++ (idle ++ entry :: rest) := by simp
      exact Nat.le_of_lt (place_lt hentries hlater)
    · rw [hidle _ hin] at hby
      cases hby
    · exact ⟨Nat.le_refl _, fun _ => Nat.le_refl _⟩
    · have hlt : start'.utf8ByteSize < entry.2.utf8ByteSize :=
        hafter _ (List.mem_filterMap.mpr ⟨_, hin, hby⟩)
      exact ⟨Nat.le_of_lt hlt, fun heq => absurd heq (Nat.ne_of_lt hlt)⟩
  refine ⟨entry.2, ⟨mem_entries.mp hmem, htext, hsimple⟩, fun hsplit => ?_,
    fun hsplit hlength => ?_⟩
  · exact (utf8ByteSize_le_iff htext hsplit.text).mp (hother hsplit).1
  · refine (hother hsplit).2 (Nat.le_antisymm (hother hsplit).1 ?_)
    exact (utf8ByteSize_le_iff hsplit.text htext).mpr (Nat.le_of_eq hlength.symm)

/-- Something is taken if there is a split. -/
theorem isSome_compactParts?_iff :
    ((empty.addAll calls).compactParts? iri).isSome ↔
      ∃ name start localName, IsSplit calls iri name start localName := by
  constructor
  · intro h
    obtain ⟨⟨name, localName⟩, hparts⟩ := Option.isSome_iff_exists.mp h
    obtain ⟨start, hsplit⟩ := isLongestSplit_of_compactParts? hparts
    exact ⟨name, start, localName, hsplit.toIsSplit⟩
  · rintro ⟨name, start, localName, hsplit⟩
    have hmem : ⟨name, start.utf8ByteSize, localName⟩ ∈
        (empty.addAll calls).entries.filterMap (splitBy? iri.toList) :=
      List.mem_filterMap.mpr ⟨_, mem_entries.mpr hsplit.registered,
        splitBy?_eq_some.mpr ⟨localName, hsplit.text, hsplit.simple, rfl⟩⟩
    unfold compactParts?
    rw [Option.isSome_map]
    rcases longest_spec ((empty.addAll calls).entries.filterMap (splitBy? iri.toList)) with
      ⟨hnil, -⟩ | ⟨_, split, _, hbest, -⟩
    · rw [hnil] at hmem
      cases hmem
    · rw [hbest]
      rfl

/-- The last registration of a prefix is the only one that counts. -/
theorem IsRegistered.unique {iri' : String} (h : IsRegistered calls name iri)
    (h' : IsRegistered calls name iri') : iri = iri' := by
  have hlookup := lookup_of_mem (nodup_keys calls) (mem_entries.mpr h)
  rw [lookup_of_mem (nodup_keys calls) (mem_entries.mpr h')] at hlookup
  exact (Option.some.inj hlookup).symm

/-- There is one split at a longest namespace. -/
theorem IsLongestSplit.unique (h : IsLongestSplit calls iri name start localName)
    (h' : IsLongestSplit calls iri name' start' localName') :
    name = name' ∧ localName = localName' := by
  have hlength : start.length = start'.length :=
    Nat.le_antisymm (h'.longest h.toIsSplit) (h.longest h'.toIsSplit)
  have hplace : place calls name = place calls name' :=
    Nat.le_antisymm (h'.last h.toIsSplit hlength) (h.last h'.toIsSplit hlength.symm)
  obtain rfl : name = name' := (List.idxOf_inj h.registered.mem).mp hplace
  obtain rfl := h.registered.unique h'.registered
  exact ⟨rfl, (String.append_right_inj start).mp (h.text.trans h'.text.symm)⟩

/-! ## Expansion -/

/-- A prefix without a colon is expanded to its IRI. -/
theorem expand_append (hname : ':' ∉ name.toList) (h : IsRegistered calls name start) :
    (empty.addAll calls).expand (name ++ ":" ++ localName) = .ok (start ++ localName) := by
  have hlookup : (empty.addAll calls).iri? name = some start :=
    lookup_of_mem (nodup_keys calls) (mem_entries.mpr h)
  have hcut : splitAtColon (name ++ ":" ++ localName).toList =
      some (name.toList, localName.toList) := by
    rw [String.toList_append, String.toList_append, List.append_assoc]
    exact splitAtColon_append hname
  unfold expand
  rw [hcut]
  dsimp only
  rw [iri, String.ofList_toList, String.ofList_toList, hlookup]
  rfl

/-- However prefixes were registered, a text is split by one of them if that is possible at all, at
the longest namespace; and where its prefix has no colon, the compact form is expanded to the text
again. -/
theorem compactParts?_longest (calls : List (String × String)) (iri : String) :
    (((empty.addAll calls).compactParts? iri).isSome ↔
        ∃ name start localName, IsSplit calls iri name start localName) ∧
      (∀ name localName, (empty.addAll calls).compactParts? iri = some (name, localName) ↔
        ∃ start, IsLongestSplit calls iri name start localName) ∧
      ∀ name localName, (empty.addAll calls).compactParts? iri = some (name, localName) →
        ':' ∉ name.toList →
          ((empty.addAll calls).compact? iri).map (empty.addAll calls).expand = some (.ok iri) := by
  refine ⟨isSome_compactParts?_iff, fun name localName => ⟨isLongestSplit_of_compactParts?, ?_⟩,
    fun name localName hparts hname => ?_⟩
  · rintro ⟨start, hsplit⟩
    obtain ⟨⟨name', localName'⟩, hparts⟩ :=
      Option.isSome_iff_exists.mp (isSome_compactParts?_iff.mpr ⟨_, _, _, hsplit.toIsSplit⟩)
    obtain ⟨start', hsplit'⟩ := isLongestSplit_of_compactParts? hparts
    obtain ⟨rfl, rfl⟩ := hsplit.unique hsplit'
    exact hparts
  · obtain ⟨start, hsplit⟩ := isLongestSplit_of_compactParts? hparts
    rw [compact?, hparts, Option.map_some, Option.map_some, expand_append hname hsplit.registered,
      hsplit.text]

end RdfStore.Namespaces
