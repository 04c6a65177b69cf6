import RdfStore.Iri.Reference
import RdfStore.Proofs.Namespaces
import RdfStore.Proofs.Outcome
import RdfStore.Proofs.Term.WellFormed

/-!
# Resolved references

What a reference is resolved to against an absolute IRI is an absolute IRI, and no character comes
in that an IRI must not hold. The components are cut out of the two texts, segments of paths are put
together again, and only delimiters are added between them.
-/

set_option autoImplicit false

namespace RdfStore

open RdfStore.Text

namespace Validity

/-! ## Texts of IRIs -/

/-- The empty text is text of an address. -/
@[simp] theorem isIriText_nil : isIriText [] = true := rfl

/-- A text is that of an address if its first character may stand there and the rest is such a text.
-/
@[simp] theorem isIriText_cons (c : Char) (cs : List Char) :
    isIriText (c :: cs) = (!isIriForbidden c && isIriText cs) := List.all_cons

/-- Two texts make text of an address if each is one. -/
@[simp] theorem isIriText_append (cs ds : List Char) :
    isIriText (cs ++ ds) = (isIriText cs && isIriText ds) := List.all_append

/-- Characters from the text of an address make another one. -/
theorem isIriText_of_subset {cs ds : List Char} (h : isIriText cs = true) (hsub : ds ⊆ cs) :
    isIriText ds = true :=
  List.all_eq_true.mpr fun c hc => List.all_eq_true.mp h c (hsub hc)

end Validity

open Validity

namespace Reference

/-! ## Cutting a text -/

/-- Whatever a step gives has a property. -/
def Gives {ε α : Type} (r : Except ε α) (p : α → Prop) : Prop := ∀ a, r = .ok a → p a

section Gives

variable {ε α β : Type} {r : Except ε α} {p q : α → Prop} {a : α}

/-- A success with the property gives it. -/
theorem gives_ok (h : p a) : Gives (.ok a : Except ε α) p := by
  rintro _ ⟨⟩
  exact h

/-- An error gives nothing that could lack the property. -/
theorem gives_error (e : ε) : Gives (.error e : Except ε α) p := nofun

/-- A step that gives a property goes on with what it gave. -/
theorem Gives.bind {f : α → Except ε β} {q : β → Prop} (h : Gives r p)
    (hf : ∀ a, p a → Gives (f a) q) : Gives (r >>= f) q := by
  intro b hb
  obtain ⟨a, ha, hb⟩ := bind_eq_ok hb
  exact hf a (h a ha) b hb

/-- What is made of a value that was given has a property if each such value gives it. -/
theorem Gives.map {f : α → β} {q : β → Prop} (h : Gives r p) (hf : ∀ a, p a → q (f a)) :
    Gives (f <$> r) q := by
  intro b hb
  obtain ⟨a, ha, rfl⟩ := map_eq_ok hb
  exact hf a (h a ha)

end Gives

/-- Texts that were read and left, both without forbidden characters. -/
def IsClean (parts : List Char × List Char) : Prop :=
  isIriText parts.1 = true ∧ isIriText parts.2 = true

variable {isAllowed isStop : Char → Bool} {cs rest : List Char}

/-- The text of an address without its first character is one. -/
theorem isIriText_tail {c : Char} (h : isIriText (c :: cs) = true) : isIriText cs = true :=
  isIriText_of_subset h (List.subset_cons_self c cs)

variable (isAllowed isStop) in
/-- What is read up to a fault or an end is a part of the text, and so is the rest. -/
theorem scanAsFar_isIriText (h : isIriText cs = true) :
    isIriText (scanAsFar isAllowed isStop cs).1 = true ∧
      Gives (scanAsFar isAllowed isStop cs).2 fun rest => isIriText rest = true := by
  fun_induction scanAsFar isAllowed isStop cs with
  | case1 => exact ⟨rfl, gives_ok rfl⟩
  | case2 => exact ⟨rfl, gives_ok h⟩
  | case3 =>
    rename_i hscan _ ih
    simp only [isIriText_cons, Bool.and_eq_true] at h
    obtain ⟨hpercent, hfirst, hsecond, htail⟩ := h
    rw [hscan] at ih
    obtain ⟨hread, hrest⟩ := ih htail
    simp only [isIriText_cons, Bool.and_eq_true]
    exact ⟨⟨hpercent, hfirst, hsecond, hread⟩, hrest⟩
  | case6 =>
    rename_i hscan ih
    simp only [isIriText_cons, Bool.and_eq_true] at h
    rw [hscan] at ih
    obtain ⟨hread, hrest⟩ := ih h.2
    simp only [isIriText_cons, Bool.and_eq_true]
    exact ⟨⟨h.1, hread⟩, hrest⟩
  | case4 | case5 | case7 => exact ⟨rfl, gives_error _⟩

/-- What is scanned, and what remains, can stand in an address. -/
theorem scan_isClean (h : isIriText cs = true) : Gives (scan isAllowed isStop cs) IsClean := by
  obtain ⟨hread, hrest⟩ := scanAsFar_isIriText isAllowed isStop h
  exact hrest.map fun rest hclean => ⟨hread, hclean⟩

/-- The port and what remains can stand in an address. -/
theorem scanPort_isClean (h : isIriText cs = true) : Gives (scanPort cs) IsClean := by
  induction cs with
  | nil => exact gives_ok ⟨rfl, rfl⟩
  | cons c rest ih =>
    unfold scanPort
    split
    · exact gives_ok ⟨rfl, h⟩
    · split
      · simp only [isIriText_cons, Bool.and_eq_true] at h
        refine (ih h.2).map fun parts hparts => ⟨?_, hparts.2⟩
        rw [isIriText_cons, h.1, hparts.1]
        rfl
      · exact gives_error _

/-- The text up to a closing bracket and what remains can stand in an address. -/
theorem splitAtBracket_isClean {parts : List Char × List Char} (h : isIriText cs = true)
    (hsplit : splitAtBracket cs = some parts) : IsClean parts := by
  induction cs generalizing parts with
  | nil => cases hsplit
  | cons c rest ih =>
    simp only [isIriText_cons, Bool.and_eq_true] at h
    unfold splitAtBracket at hsplit
    split at hsplit
    · cases hsplit
      exact ⟨rfl, h.2⟩
    · obtain ⟨inner, hinner, rfl⟩ := Option.map_eq_some_iff.mp hsplit
      obtain ⟨hfront, hback⟩ := ih h.2 hinner
      refine ⟨?_, hback⟩
      rw [isIriText_cons, h.1, hfront]
      rfl

/-- What follows the host and what remains can stand in an address. -/
theorem scanAfterHost_isClean (isBracketed : Bool) (h : isIriText cs = true) :
    Gives (scanAfterHost isBracketed cs) IsClean := by
  unfold scanAfterHost
  split
  · exact gives_ok ⟨rfl, rfl⟩
  · split
    · rename_i hcolon
      have hport := scanPort_isClean (isIriText_tail h)
      refine hport.map fun parts hparts => ⟨?_, hparts.2⟩
      rw [isIriText_cons, hparts.1]
      rfl
    · split
      · exact gives_ok ⟨rfl, h⟩
      · exact gives_error _

/-- The host and what remains can stand in an address. -/
theorem scanHost_isClean (h : isIriText cs = true) : Gives (scanHost cs) IsClean := by
  unfold scanHost
  split
  · split
    · rename_i address tail hsplit
      obtain ⟨haddress, htail⟩ := splitAtBracket_isClean (isIriText_tail h) hsplit
      refine Gives.bind (p := fun _ => True) (fun _ _ => trivial) fun _ _ => ?_
      refine (scanAfterHost_isClean true htail).bind fun parts hparts => gives_ok ⟨?_, hparts.2⟩
      have hbracket : isIriForbidden '[' = false ∧ isIriForbidden ']' = false := by decide
      simp [haddress, hparts.1, hbracket]
    · exact gives_error _
  · refine (scan_isClean h).bind fun parts hparts => ?_
    refine (scanAfterHost_isClean false hparts.2).bind fun port hport => gives_ok ⟨?_, hport.2⟩
    rw [isIriText_append, hparts.1, hport.1]
    rfl

/-- The authority and what remains can stand in an address. -/
theorem scanAuthority_isClean (h : isIriText cs = true) : Gives (scanAuthority cs) IsClean := by
  unfold scanAuthority
  refine (scan_isClean h).bind fun parts hparts => ?_
  split
  · rename_i user tail _
    refine (scanHost_isClean (isIriText_tail hparts.2)).bind fun host hhost =>
      gives_ok ⟨?_, hhost.2⟩
    have hat : isIriForbidden '@' = false := by decide
    simp [hparts.1, hhost.1, hat]
  · exact scanHost_isClean h

/-- A part of a reference without forbidden characters, if it is there. -/
def IsCleanPart (part : Option (List Char)) : Prop := ∀ cs, part = some cs → isIriText cs = true

/-- A part with text of an address is clean. -/
theorem isCleanPart_some (h : isIriText cs = true) : IsCleanPart (some cs) := by
  rintro _ ⟨⟩
  exact h

/-- A part that is missing is clean. -/
theorem isCleanPart_none : IsCleanPart none := by
  rintro _ ⟨⟩

/-- The query and what remains can stand in an address. -/
theorem scanQuery_isClean (h : isIriText cs = true) :
    Gives (scanQuery cs) fun parts => IsCleanPart parts.1 ∧ isIriText parts.2 = true := by
  unfold scanQuery
  split
  · exact (scan_isClean (isIriText_tail h)).map fun parts hparts =>
      ⟨isCleanPart_some hparts.1, hparts.2⟩
  · exact gives_ok ⟨isCleanPart_none, h⟩

/-- The fragment can stand in an address. -/
theorem scanFragment_isClean (h : isIriText cs = true) : Gives (scanFragment cs) IsCleanPart := by
  unfold scanFragment
  split
  · exact (scan_isClean (isIriText_tail h)).map fun parts hparts => isCleanPart_some hparts.1
  · exact gives_ok isCleanPart_none

/-- The path as far as it is scanned can stand in an address, and so can what remains. -/
theorem scanPathAsFar_isIriText (colonInFirst : Bool) (h : isIriText cs = true) :
    isIriText (scanPathAsFar colonInFirst cs).1 = true ∧
      Gives (scanPathAsFar colonInFirst cs).2 fun rest => isIriText rest = true := by
  unfold scanPathAsFar
  dsimp only
  split
  · exact scanAsFar_isIriText _ _ h
  · have hfirst := scanAsFar_isIriText (fun c => isPlainChar c || c == '@') endsAuthority h
    split
    · rename_i first f heq
      rw [heq] at hfirst
      exact ⟨hfirst.1, gives_error f⟩
    · rename_i first tail heq
      rw [heq] at hfirst
      obtain ⟨hmore, hrest⟩ := scanAsFar_isIriText (fun c => isSegmentChar c || c == '/') endsPath
        (hfirst.2 tail rfl)
      refine ⟨?_, hrest⟩
      rw [isIriText_append, hfirst.1, hmore]
      rfl

/-- The path and what remains can stand in an address. -/
theorem scanPath_isClean (colonInFirst : Bool) (h : isIriText cs = true) :
    Gives (scanPath colonInFirst cs) IsClean := by
  obtain ⟨hread, hrest⟩ := scanPathAsFar_isIriText colonInFirst h
  exact hrest.map fun rest hclean => ⟨hread, hclean⟩

/-! ## References -/

/-- Components without forbidden characters. -/
structure HasCleanParts (r : Reference) : Prop where
  authority : IsCleanPart r.authority
  path : isIriText r.path = true
  query : IsCleanPart r.query
  fragment : IsCleanPart r.fragment

/-- Behind a scheme, the parts of a reference are clean, and the scheme is the given one. -/
theorem parseAfterScheme_clean (scheme : Option (List Char)) (h : isIriText cs = true) :
    Gives (parseAfterScheme scheme cs) fun r => r.scheme = scheme ∧ r.HasCleanParts := by
  have hrest : ∀ authority tail, IsCleanPart authority → isIriText tail = true →
      Gives (do
        let path ← scanPath (scheme.isSome || authority.isSome) tail
        let query ← scanQuery path.2
        let fragment ← scanFragment query.2
        return (⟨scheme, authority, path.1, query.1, fragment⟩ : Reference)) fun r =>
          r.scheme = scheme ∧ r.HasCleanParts := by
    intro authority tail hauthority htail
    refine (scanPath_isClean _ htail).bind fun path hpath => ?_
    refine (scanQuery_isClean hpath.2).bind fun query hquery => ?_
    refine (scanFragment_isClean hquery.2).bind fun fragment hfragment => ?_
    exact gives_ok ⟨rfl, hauthority, hpath.1, hquery.1, hfragment⟩
  unfold parseAfterScheme
  dsimp only
  split
  · have hauthority := (scanAuthority_isClean (isIriText_tail (isIriText_tail h))).map
      (f := fun r => (some r.1, r.2)) (q := fun parts => IsCleanPart parts.1 ∧ isIriText parts.2 = true)
      fun parts hparts => ⟨isCleanPart_some hparts.1, hparts.2⟩
    exact hauthority.bind fun parts hparts => hrest parts.1 parts.2 hparts.1 hparts.2
  · exact hrest none cs isCleanPart_none h

/-- The scheme of a text that has one is a scheme, and the other components are clean. -/
theorem parse_clean (h : isIriText cs = true) : Gives (parse cs) fun r =>
    (∀ scheme, r.scheme = some scheme → IsScheme scheme ∧ isIriText scheme = true) ∧
      r.HasCleanParts := by
  unfold parse
  split
  · exact gives_error _
  · split
    · rename_i rest hrest
      obtain ⟨scheme, hscheme, rfl⟩ := exists_scheme hrest
      have htail : isIriText rest = true :=
        isIriText_of_subset h fun c hc => List.mem_append_right _ (List.mem_cons_of_mem _ hc)
      intro r hr
      obtain ⟨hr, hclean⟩ := parseAfterScheme_clean _ htail r hr
      refine ⟨fun s hs => ?_, hclean⟩
      rw [hr] at hs
      cases hs
      have hlength : (scheme ++ ':' :: rest).length - rest.length - 1 = scheme.length := by
        simp
        omega
      rw [hlength, List.take_left]
      exact ⟨hscheme, isIriText_of_subset h (List.subset_append_left _ _)⟩
    · intro r hr
      obtain ⟨hr, hclean⟩ := parseAfterScheme_clean none h r hr
      refine ⟨fun s hs => ?_, hclean⟩
      rw [hr] at hs
      cases hs

/-- The text of clean components after a scheme is that of an absolute IRI. -/
theorem HasCleanParts.text {r : Reference} (h : r.HasCleanParts) {scheme : List Char}
    (hr : r.scheme = some scheme) (hscheme : IsScheme scheme) (hclean : isIriText scheme = true) :
    isIriText r.text = true ∧ isAbsolute r.text = true := by
  obtain ⟨s, authority, path, query, fragment⟩ := r
  obtain ⟨hauthority, hpath, hquery, hfragment⟩ := h
  obtain rfl : s = some scheme := hr
  have hmarks : isIriForbidden ':' = false ∧ isIriForbidden '/' = false ∧
      isIriForbidden '?' = false ∧ isIriForbidden '#' = false := by decide
  have hfront : isIriText (authority.elim [] ('/' :: '/' :: ·)) = true := by
    cases authority with
    | none => rfl
    | some cs => simp [hauthority cs rfl, hmarks]
  have hquestion : isIriText (query.elim [] ('?' :: ·)) = true := by
    cases query with
    | none => rfl
    | some cs => simp [hquery cs rfl, hmarks]
  have hlast : isIriText (fragment.elim [] ('#' :: ·)) = true := by
    cases fragment with
    | none => rfl
    | some cs => simp [hfragment cs rfl, hmarks]
  constructor
  · dsimp only at hpath
    simp [Reference.text, hclean, hfront, hpath, hquestion, hlast, hmarks]
  · simp [Reference.text, isAbsolute, afterScheme?_append hscheme]

/-! ## Paths -/

variable {base : Reference} {path dir segment : List Char}

/-- The directory of a path can stand in an address if the path can. -/
theorem directory_isIriText (h : isIriText path = true) : isIriText (directory path) = true := by
  refine isIriText_of_subset h fun c hc => ?_
  have hmem := (List.dropWhile_sublist _).subset (List.mem_reverse.mp hc)
  exact List.mem_reverse.mp hmem

/-- The root of a base can stand in an address. -/
theorem root_isIriText (base : Reference) : isIriText (root base) = true := by
  unfold root
  split <;> decide

/-- The parent of a directory can stand in an address. -/
theorem parent_isIriText (hdir : isIriText dir = true) :
    isIriText (parent (root base) dir) = true := by
  unfold parent
  split
  · exact root_isIriText base
  · exact directory_isIriText (isIriText_of_subset hdir (List.dropLast_subset dir))

/-- A path whose start is checked can stand in an address. -/
theorem checkStart_isIriText (h : isIriText path = true) :
    Gives (checkStart base path) fun path => isIriText path = true := by
  unfold checkStart
  split
  · exact gives_error _
  · exact gives_ok h

/-- Entering a directory makes a path that can stand in an address. -/
theorem enter_isIriText (hdir : isIriText dir = true) (hsegment : isIriText segment = true) :
    Gives (enter base dir segment) fun path => isIriText path = true := by
  unfold enter
  split
  · exact checkStart_isIriText hdir
  · split
    · exact checkStart_isIriText (parent_isIriText hdir)
    · have hslash : isIriForbidden '/' = false := by decide
      exact gives_ok (by simp [hdir, hsegment, hslash])

/-- The last segment makes a path that can stand in an address. -/
theorem finish_isIriText (hdir : isIriText dir = true) (hsegment : isIriText segment = true) :
    Gives (finish base dir segment) fun path => isIriText path = true := by
  unfold finish
  split
  · exact checkStart_isIriText hdir
  · split
    · exact checkStart_isIriText (parent_isIriText hdir)
    · exact checkStart_isIriText (by rw [isIriText_append, hdir, hsegment]; rfl)

/-- The segments of a path can stand in an address. -/
theorem isIriText_of_mem_splitOn (h : isIriText path = true) :
    ∀ segment ∈ path.splitOn '/', isIriText segment = true := by
  induction path with
  | nil =>
    intro segment hsegment
    rw [List.mem_singleton.mp hsegment]
    rfl
  | cons c path ih =>
    simp only [isIriText_cons, Bool.and_eq_true] at h
    intro segment hsegment
    rw [List.splitOn, List.splitOnP_cons_eq_if_modifyHead] at hsegment
    split at hsegment
    · rcases List.mem_cons.mp hsegment with rfl | hsegment
      · rfl
      · exact ih h.2 segment hsegment
    · have hmore := ih h.2
      rw [List.splitOn] at hmore
      cases hpieces : path.splitOnP (· == '/') with
      | nil =>
        rw [hpieces] at hsegment
        cases hsegment
      | cons first rest =>
        rw [hpieces] at hsegment hmore
        rcases List.mem_cons.mp hsegment with rfl | hsegment
        · rw [isIriText_cons, h.1, hmore first List.mem_cons_self]
          rfl
        · exact hmore segment (List.mem_cons_of_mem first hsegment)

/-- The directory to start from and the segments to enter can stand in an address. -/
theorem segmentsFrom_isIriText (hbase : base.HasCleanParts) (h : isIriText path = true) :
    isIriText (segmentsFrom base path).1 = true ∧
      ∀ segment ∈ (segmentsFrom base path).2, isIriText segment = true := by
  unfold segmentsFrom
  split
  · exact ⟨rfl, isIriText_of_mem_splitOn (isIriText_tail h)⟩
  · refine ⟨?_, isIriText_of_mem_splitOn h⟩
    dsimp only
    split
    · exact root_isIriText base
    · exact directory_isIriText hbase.path

/-- The directory after some segments. -/
theorem enterAll_isIriText {segments : List (List Char)} (hdir : isIriText dir = true)
    (h : ∀ segment ∈ segments, isIriText segment = true) :
    Gives (segments.foldlM (enter base) dir) fun path => isIriText path = true := by
  induction segments generalizing dir with
  | nil => exact gives_ok hdir
  | cons segment segments ih =>
    rw [List.foldlM_cons]
    refine (enter_isIriText hdir (h segment List.mem_cons_self)).bind fun next hnext => ?_
    exact ih hnext fun s hs => h s (List.mem_cons_of_mem segment hs)

/-- A resolved path and what remains can stand in an address. -/
theorem resolvePath_isClean (hbase : base.HasCleanParts) (h : isIriText cs = true) :
    Gives (resolvePath base cs) IsClean := by
  obtain ⟨hread, hrest⟩ := scanPathAsFar_isIriText false h
  unfold resolvePath
  generalize scanPathAsFar false cs = parts at hread hrest
  obtain ⟨path, outcome⟩ := parts
  obtain ⟨hstart, hsegments⟩ := segmentsFrom_isIriText hbase hread
  dsimp only at hstart hsegments hrest ⊢
  generalize segmentsFrom base path = found at hstart hsegments
  obtain ⟨start, segments⟩ := found
  have hfront := fun segment hs => hsegments segment (List.dropLast_subset _ hs)
  have hlast : isIriText (segments.getLast?.getD []) = true := by
    cases hsegment : segments.getLast? with
    | none => rfl
    | some segment => exact hsegments segment (List.mem_of_getLast? hsegment)
  refine (enterAll_isIriText hstart hfront).bind fun dir hdir => hrest.bind fun tail htail => ?_
  split
  · exact gives_ok ⟨hbase.path, htail⟩
  · exact (finish_isIriText hdir hlast).bind fun path hpath => gives_ok ⟨hpath, htail⟩

/-! ## Resolution -/

/-- A relative reference is resolved to clean parts with the scheme of the base. -/
theorem resolveRelative_clean (hbase : base.HasCleanParts) (h : isIriText cs = true) :
    Gives (resolveRelative base cs) fun r => r.scheme = base.scheme ∧ r.HasCleanParts := by
  unfold resolveRelative
  refine (resolvePath_isClean hbase h).bind fun parts hparts => ?_
  refine (scanQuery_isClean hparts.2).bind fun query hquery => ?_
  refine (scanFragment_isClean hquery.2).bind fun fragment hfragment => ?_
  refine gives_ok ⟨rfl, hbase.authority, hparts.1, fun q hq => ?_, hfragment⟩
  dsimp only at hq
  split at hq
  · exact hquery.1 q hq
  · cases hread : query.1 with
    | none =>
      rw [hread] at hq
      exact hbase.query q hq
    | some found =>
      rw [hread] at hq
      cases hq
      exact hquery.1 _ hread

/-- A reference that is no absolute IRI keeps the scheme of the base. -/
theorem resolve_clean (hbase : base.HasCleanParts) (h : isIriText cs = true)
    (hrelative : isAbsolute cs = false) :
    Gives (resolve base cs) fun r => r.scheme = base.scheme ∧ r.HasCleanParts := by
  unfold resolve
  split
  · exact gives_error _
  · refine (parse_clean h).map fun r hr => ⟨rfl, ?_⟩
    exact ⟨hr.2.authority, hr.2.path, hr.2.query, hr.2.fragment⟩
  · rw [if_neg (Bool.eq_false_iff.mp hrelative)]
    exact resolveRelative_clean hbase h

end Reference

/-- What a relative reference is resolved to is an absolute IRI without forbidden characters. -/
theorem of_resolveIri {base reference resolved : String} (hbase : isIriText base.toList = true)
    (hrelative : isAbsolute reference.toList = false)
    (h : resolveIri base reference = .ok resolved) : Iri.of resolved = .ok ⟨resolved⟩ := by
  unfold resolveIri at h
  dsimp only at h
  split at h
  · cases h
  rename_i hreference
  split at h
  · cases h
  rename_i b hb
  split at h
  · cases h
  rename_i r hr
  cases h
  have hclean : isIriText reference.toList = true := by simpa using hreference
  obtain ⟨parsed, hparsed, hcheck⟩ := bind_eq_ok hb
  obtain ⟨hscheme, hparts⟩ := Reference.parse_clean hbase parsed hparsed
  split at hcheck
  · rename_i hsome
    cases hcheck
    obtain ⟨scheme, hs⟩ := Option.isSome_iff_exists.mp hsome
    obtain ⟨hsame, hresult⟩ := Reference.resolve_clean hparts hclean hrelative r hr
    obtain ⟨hvalid, hiri⟩ := hscheme scheme hs
    obtain ⟨htext, habsolute⟩ := hresult.text (hsame.trans hs) hvalid hiri
    exact Iri.of_eq (by rwa [String.toList_ofList]) (by rwa [String.toList_ofList])
  · cases hcheck

end RdfStore
