import RdfStore.Proofs.Query.Placement
import RdfStore.Proofs.Syntax.Marks

/-!
# The meaning of blocks of patterns

What the nodes of a block of triples say under a numbering of their spots. A label means itself,
and every `[]`, every `[ … ]` and every cell of a list means the place with the number of its own
spot. The walk numbers spots as it meets them, so the number of a spot is its place in the log of
those met so far. What the walk reads is what the nodes say under any numbering that follows the
log.
-/

set_option autoImplicit false

namespace RdfStore.Query

open RdfStore.Peg RdfStore.Syntax

/-! ## Meanings -/

/-- Patterns about the cells of lists. -/
def listing : Listing Place Place Pattern where
  node cell := cell
  state cell predicate object := ⟨cell, .term (.iri predicate), object⟩

/-- What a walk that numbers nothing answers. -/
def saidBy {α : Type} (walk : ReaderM α) : Said Pattern α := .ofExcept (walk.run.run 0).1

section Meaning

variable (number : Spot → Nat) (scope : IriScope) (inTemplate : Bool)

/-- The place of a spot without a label. -/
def spotPlace (spot : Spot) : Place := blankPlace inTemplate ("~" ++ toString (number spot))

/-- The cells of the list at a node. -/
def cells (place : Path) (index : Nat) : Place := spotPlace number inTemplate (.cell place index)

mutual

/-- What a node at a place means as a subject or object. -/
def saidPlace (place : Path) : Node → Said Pattern Place
  | .node rule start text children =>
    match rule with
    | .var => pure (.var (String.ofList (text.drop 1)))
    | .terminal .blankNodeLabel => pure (blankPlace inTemplate (String.ofList (text.drop 2)))
    | .terminal .anonymous => pure (spotPlace number inTemplate (.node place))
    | .emptyList => listing.link (cells number inTemplate place) (.term (.iri Vocabulary.rdfNil)) []
    | .blankNodePropertyList => do
      saidProperties place 0 (spotPlace number inTemplate (.node place)) children
      return spotPlace number inTemplate (.node place)
    | .collection => do
      let items ← saidPlaces place 0 children
      listing.link (cells number inTemplate place) (.term (.iri Vocabulary.rdfNil)) items
    | _ => Place.term <$> saidBy (readTerm scope (.node rule start text children))

/-- What the children of a node from a position on mean as places. -/
def saidPlaces (place : Path) (i : Nat) : List Node → Said Pattern (List Place)
  | [] => pure []
  | node :: nodes => do
    let item ← saidPlace (i :: place) node
    let items ← saidPlaces place (i + 1) nodes
    return item :: items

/-- The properties of a subject, written in the child at a position if there is one. -/
def saidProperties (place : Path) (i : Nat) (subject : Place) : List Node → Said Pattern Unit
  | [] => pure ()
  | .node _ _ _ items :: _ => saidVerbObjects (i :: place) 0 subject items

/-- Verbs, each with its list of objects, from a position on. -/
def saidVerbObjects (place : Path) (i : Nat) (subject : Place) : List Node → Said Pattern Unit
  | verb :: .node _ _ _ objects :: rest => do
    let predicate ← saidBy (readVerb scope verb)
    saidObjects ((i + 1) :: place) 0 subject predicate objects
    saidVerbObjects place (i + 2) subject rest
  | _ => pure ()

/-- One pattern for every object from a position on. -/
def saidObjects (place : Path) (i : Nat) (subject predicate : Place) :
    List Node → Said Pattern Unit
  | [] => pure ()
  | node :: nodes => do
    let object ← saidPlace (i :: place) node
    Said.say [⟨subject, predicate, object⟩]
    saidObjects place (i + 1) subject predicate nodes

end

/-- Patterns with a common subject. -/
def saidSameSubject (place : Path) (node : Node) : Said Pattern Unit :=
  match node.children with
  | [] => pure ()
  | first :: rest => do
    let subject ← saidPlace number scope inTemplate (0 :: place) first
    saidProperties number scope inTemplate place 1 subject rest

/-- The patterns of a block, whose children have a subject each, from a position on. -/
def saidBlocks (place : Path) (i : Nat) : List Node → Said Pattern Unit
  | [] => pure ()
  | node :: nodes => do
    saidSameSubject number scope inTemplate (i :: place) node
    saidBlocks place (i + 1) nodes

end Meaning

/-! ## Logs -/

/-- A numbering gives the spots of a log their places in it. -/
def FollowsLog (number : Spot → Nat) (log : List Spot) : Prop :=
  ∀ (i : Nat) (spot : Spot), log[i]? = some spot → number spot = i

/-- A log goes on with spots of a part of the text. -/
structure GoesOn (log new : List Spot) (owned : Spot → Prop) : Prop where
  nodup : (log ++ new).Nodup
  owned : ∀ spot ∈ new, owned spot

/-- Whatever a part of the walk answers, the log goes on with its own spots, and the answer is one
that the part can give under any numbering that follows the log. -/
def Follows {α : Type} (walk : ReaderM α) (owned : Spot → Prop)
    (gives : (Spot → Nat) → α → Prop) : Prop :=
  ∀ log r n, log.Nodup → (∀ spot, owned spot → spot ∉ log) →
    walk.run.run log.length = (r, n) → ∃ new, GoesOn log new owned ∧ n = (log ++ new).length ∧
      ∀ a, r = .ok a → ∀ number, FollowsLog number (log ++ new) → gives number a

/-- No spot is touched. -/
def noSpot : Spot → Prop := fun _ => False

variable {α β : Type} {walk : ReaderM α} {owned owned' : Spot → Prop}
  {gives gives' : (Spot → Nat) → α → Prop} {log new more : List Spot}

/-- A numbering that follows a log follows its beginning. -/
theorem FollowsLog.left {number : Spot → Nat} (h : FollowsLog number (log ++ new)) :
    FollowsLog number log := by
  intro i spot hspot
  refine h i spot ?_
  have hi := (List.getElem?_eq_some_iff.mp hspot).1
  rw [List.getElem?_append_left hi, hspot]

/-- A numbering that follows a log numbers its last spot by the number of those before. -/
theorem FollowsLog.last {number : Spot → Nat} {spot : Spot}
    (h : FollowsLog number (log ++ [spot])) : number spot = log.length := h log.length spot (by simp)

/-- A log goes on by nothing. -/
theorem goesOn_nil (h : log.Nodup) : GoesOn log [] owned where
  nodup := by rwa [List.append_nil]
  owned _ hspot := nomatch hspot

/-- What a log goes on by stays owned by more spots. -/
theorem GoesOn.mono (h : GoesOn log new owned) (hle : ∀ spot, owned spot → owned' spot) :
    GoesOn log new owned' where
  nodup := h.nodup
  owned spot hspot := hle spot (h.owned spot hspot)

/-- A log that goes on twice goes on by both parts. -/
theorem GoesOn.append (h : GoesOn log new owned) (h' : GoesOn (log ++ new) more owned) :
    GoesOn log (new ++ more) owned where
  nodup := by
    rw [← List.append_assoc]
    exact h'.nodup
  owned spot hspot := (List.mem_append.mp hspot).elim (h.owned spot) (h'.owned spot)

/-- A value without a walk is given by every numbering. -/
theorem follows_pure {a : α} (h : ∀ number, gives number a) : Follows (pure a) owned gives := by
  intro log r n hlog _ hrun
  cases hrun
  refine ⟨[], goesOn_nil hlog, by rw [List.append_nil], fun b hb number _ => ?_⟩
  cases hb
  exact h number

/-- A failure gives nothing, so every numbering is followed. -/
theorem follows_throw (f : Failure) : Follows (throw f : ReaderM α) owned gives := by
  intro log r n hlog _ hrun
  cases hrun
  exact ⟨[], goesOn_nil hlog, by rw [List.append_nil], nofun⟩

/-- A computed outcome. -/
theorem follows_mk {r : Except Failure α} (h : ∀ a, r = .ok a → ∀ number, gives number a) :
    Follows (ExceptT.mk (pure r)) owned gives := by
  cases r with
  | ok a => exact follows_pure (h a rfl)
  | error f => exact follows_throw f

/-- A walk that stays within some spots stays within more of them. -/
theorem Follows.mono (h : Follows walk owned gives) (hle : ∀ spot, owned spot → owned' spot) :
    Follows walk owned' gives := by
  intro log r n hlog hfresh hrun
  obtain ⟨new, hnew, hn, hr⟩ := h log r n hlog (fun spot hspot => hfresh spot (hle spot hspot)) hrun
  exact ⟨new, hnew.mono hle, hn, hr⟩

/-- What a walk gives may be weakened. -/
theorem Follows.imp (h : Follows walk owned gives)
    (hgives : ∀ number a, gives number a → gives' number a) : Follows walk owned gives' := by
  intro log r n hlog hfresh hrun
  obtain ⟨new, hnew, hn, hr⟩ := h log r n hlog hfresh hrun
  exact ⟨new, hnew, hn, fun a ha number hnumber => hgives _ _ (hr a ha number hnumber)⟩

/-- Two parts that own different spots, one after the other. -/
theorem Follows.bind {f : α → ReaderM β} {first second : Spot → Prop}
    {then' : α → (Spot → Nat) → β → Prop} (h : Follows walk first gives)
    (hf : ∀ a, Follows (f a) second (then' a)) (hfirst : ∀ spot, first spot → owned spot)
    (hsecond : ∀ spot, second spot → owned spot) (hapart : ∀ spot, first spot → ¬second spot) :
    Follows (walk >>= f) owned fun number b => ∃ a, gives number a ∧ then' a number b := by
  intro log r n hlog hfresh hrun
  rw [run_bind] at hrun
  rcases hwalk : walk.run.run log.length with ⟨e | a, n'⟩
  all_goals
    obtain ⟨new, hnew, hn, hr⟩ :=
      h log _ n' hlog (fun spot hspot => hfresh spot (hfirst spot hspot)) hwalk
    rw [hwalk] at hrun
  · cases hrun
    exact ⟨new, hnew.mono hfirst, hn, nofun⟩
  · dsimp only at hrun
    rw [hn] at hrun
    have hfresh' : ∀ spot, second spot → spot ∉ log ++ new := by
      intro spot hspot hmem
      rcases List.mem_append.mp hmem with hmem | hmem
      · exact hfresh spot (hsecond spot hspot) hmem
      · exact hapart spot (hnew.owned spot hmem) hspot
    obtain ⟨more, hmore, hn', hr'⟩ := hf a (log ++ new) r n hnew.nodup hfresh' hrun
    refine ⟨new ++ more, (hnew.mono hfirst).append (hmore.mono hsecond), ?_, fun b hb number hν => ?_⟩
    · rw [hn', List.append_assoc]
    · rw [← List.append_assoc] at hν
      exact ⟨a, hr a rfl number hν.left, hr' b hb number hν⟩

/-- A first part that touches no spot. -/
theorem Follows.then {f : α → ReaderM β} {then' : α → (Spot → Nat) → β → Prop}
    (h : Follows walk noSpot gives) (hf : ∀ a, Follows (f a) owned (then' a)) :
    Follows (walk >>= f) owned fun number b => ∃ a, gives number a ∧ then' a number b :=
  h.bind hf (fun _ h => h.elim) (fun _ h => h) fun _ h => h.elim

/-- A last part that touches no spot. -/
theorem Follows.finish {f : α → ReaderM β} {then' : α → (Spot → Nat) → β → Prop}
    (h : Follows walk owned gives) (hf : ∀ a, Follows (f a) noSpot (then' a)) :
    Follows (walk >>= f) owned fun number b => ∃ a, gives number a ∧ then' a number b :=
  h.bind hf (fun _ h => h) (fun _ h => h.elim) fun _ _ h => h

/-- A part whose answer is used once more. -/
theorem Follows.last (h : Follows walk owned gives) (f : α → β) :
    Follows (walk >>= fun a => pure (f a)) owned fun number b => ∃ a, gives number a ∧ b = f a :=
  h.finish fun _ => follows_pure fun _ => rfl

/-- A part that is kept with its failure. -/
theorem Follows.observe (h : Follows walk owned gives) :
    Follows (observe walk) owned fun number r => ∀ a, r = .ok a → gives number a := by
  intro log r n hlog hfresh hrun
  rw [run_observe] at hrun
  obtain ⟨rfl, rfl⟩ := Prod.mk.inj hrun
  obtain ⟨new, hnew, hn, hr⟩ := h log _ _ hlog hfresh rfl
  refine ⟨new, hnew, hn, fun a ha number hnumber b hb => ?_⟩
  exact hr b ((Except.ok.inj ha).trans hb) number hnumber

/-! ## Parts that number nothing -/

/-- A walk answers the same whatever the number of the next spot, which it leaves as it is. -/
def IsSteady (walk : ReaderM α) : Prop := ∀ n, walk.run.run n = ((walk.run.run 0).1, n)

/-- A value leaves the count. -/
theorem isSteady_pure (a : α) : IsSteady (pure a : ReaderM α) := fun _ => rfl

/-- A failure leaves the count. -/
theorem isSteady_throw (f : Failure) : IsSteady (throw f : ReaderM α) := fun _ => rfl

/-- A token that is taken leaves the count. -/
theorem isSteady_take (r : Except TokenFailure α) : IsSteady (take r) := by
  cases r with
  | ok a => exact isSteady_pure a
  | error e => exact isSteady_throw _

/-- Two steps that leave the count do so together. -/
theorem IsSteady.bind {f : α → ReaderM β} (h : IsSteady walk) (hf : ∀ a, IsSteady (f a)) :
    IsSteady (walk >>= f) := by
  intro n
  rw [run_bind, run_bind, h n]
  rcases walk.run.run 0 with ⟨e | a, k⟩
  · rfl
  · exact (hf a n).trans (congrArg (·, n) (congrArg Prod.fst (hf a k)).symm)

/-- Changing the value leaves the count. -/
theorem IsSteady.map (h : IsSteady walk) (f : α → β) : IsSteady (f <$> walk) :=
  h.bind fun a => isSteady_pure (f a)

/-- Steps for each of a list leave the count if each one does. -/
theorem IsSteady.mapM {f : β → ReaderM α} {list : List β} (h : ∀ b ∈ list, IsSteady (f b)) :
    IsSteady (list.mapM f) := by
  induction list with
  | nil => exact isSteady_pure []
  | cons b rest ih =>
    rw [List.mapM_cons]
    refine (h b List.mem_cons_self).bind fun a => ?_
    exact (ih fun c hc => h c (List.mem_cons_of_mem b hc)).bind fun _ => isSteady_pure _

/-- What it answers is what it says. -/
theorem IsSteady.follows (h : IsSteady walk) :
    Follows walk noSpot fun _ a => saidBy walk = .means a [] := by
  intro log r n hlog _ hrun
  rw [h] at hrun
  obtain ⟨hr, rfl⟩ := Prod.mk.inj hrun
  refine ⟨[], goesOn_nil hlog, by rw [List.append_nil], fun a ha _ _ => ?_⟩
  rw [saidBy, hr, ha]
  rfl

/-- What comes after it is followed by the same. -/
theorem IsSteady.then {f : α → ReaderM β} {gives : (Spot → Nat) → β → Prop} (h : IsSteady walk)
    (hf : ∀ a, Follows (f a) owned gives) : Follows (walk >>= f) owned gives :=
  (h.follows.then hf).imp fun _ _ ⟨_, _, hgives⟩ => hgives

/-- Reading a term leaves the count. -/
theorem isSteady_readTerm (scope : IriScope) (node : Node) : IsSteady (readTerm scope node) := by
  unfold readTerm
  split
  · exact (isSteady_take _).map _
  · exact isSteady_pure _
  · split
    · exact isSteady_pure _
    · exact (isSteady_take _).map _
  · exact isSteady_throw _

/-- Reading a verb leaves the count. -/
theorem isSteady_readVerb (scope : IriScope) (node : Node) : IsSteady (readVerb scope node) := by
  have hpath : ∀ path, IsSteady (readPath scope path) := by
    intro path
    fun_induction readPath scope path with
    | case1 => exact isSteady_pure _
    | case2 _ _ _ _ _ _ _ _ _ _ _ _ _ _ _ ih => exact ih
    | case3 => exact isSteady_take _
    | case4 | case5 => exact isSteady_throw _
  unfold readVerb
  split
  · exact isSteady_pure _
  · exact (hpath node).bind fun _ => isSteady_pure _
  · exact isSteady_throw _

/-- Reading inline data leaves the count. -/
theorem isSteady_readData (scope : IriScope) (nodes : List Node) :
    IsSteady (readData scope nodes) := by
  have hdatum : ∀ node, IsSteady (readDatum scope node) := by
    intro node
    unfold readDatum
    split
    · exact isSteady_pure _
    · exact (isSteady_readTerm scope node).map some
  have hrow : ∀ vars row, IsSteady (readRow scope vars row) := by
    intro vars row
    refine (IsSteady.mapM fun node _ => hdatum node).bind fun values => ?_
    split
    · exact isSteady_pure _
    · exact isSteady_throw _
  have hblock : ∀ block, IsSteady (readDataBlock scope block) := by
    intro block
    unfold readDataBlock
    split
    · refine (IsSteady.mapM fun node _ => ?_).bind fun _ => isSteady_pure _
      exact (hdatum node).bind fun _ => isSteady_pure _
    · exact (IsSteady.mapM fun row _ => hrow _ row).bind fun _ => isSteady_pure _
  unfold readData
  split
  · exact isSteady_pure _
  · exact hblock _

/-! ## Places and properties -/

/-- A spot gets the next number. -/
theorem follows_anonymousPlace (inTemplate : Bool) (spot : Spot) :
    Follows (anonymousPlace inTemplate) (· = spot) fun number place =>
      place = spotPlace number inTemplate spot := by
  intro log r n hlog hfresh hrun
  cases hrun
  refine ⟨[spot], ⟨?_, fun other hother => List.mem_singleton.mp hother⟩, by simp, ?_⟩
  · rw [List.nodup_append]
    refine ⟨hlog, List.nodup_singleton spot, fun a ha b hb => ?_⟩
    rw [List.mem_singleton.mp hb]
    exact ne_of_mem_of_not_mem ha (hfresh spot rfl)
  · rintro _ ⟨⟩ number hnumber
    rw [spotPlace, hnumber.last]

/-- The cells of a list get their numbers from the first to the last. -/
theorem follows_cells (inTemplate : Bool) (place : Path) (items : List Place) (i : Nat) :
    Follows (items.mapM fun _ => anonymousPlace inTemplate)
      (fun spot => ∃ j, i ≤ j ∧ spot = .cell place j) fun number found =>
        found = (List.range' i items.length).map (cells number inTemplate place) := by
  induction items generalizing i with
  | nil => exact follows_pure fun _ => rfl
  | cons item items ih =>
    rw [List.mapM_cons]
    refine Follows.imp ((follows_anonymousPlace inTemplate (.cell place i)).bind
      (fun cell => (ih (i + 1)).last (cell :: ·)) ?_ ?_ ?_) ?_
    · exact fun spot hspot => ⟨i, Nat.le_refl i, hspot⟩
    · exact fun spot ⟨j, hj, hspot⟩ => ⟨j, Nat.le_of_succ_le hj, hspot⟩
    · rintro _ rfl ⟨j, hj, hspot⟩
      injection hspot with _ hindex
      omega
    · rintro number _ ⟨_, rfl, _, rfl, rfl⟩
      rfl

/-- The last cell is linked first. -/
theorem linkCells_eq (cell : Nat → Place) (items : List Place) (tail : Place)
    (done : List Pattern) :
    linkCells ((((List.range items.length).map cell).zip items).reverse) tail done =
      (listing.listNode cell tail items.length 0, done ++ listing.chain cell tail items) := by
  induction items using List.reverseRecOn generalizing tail done with
  | nil => simp [linkCells, Listing.listNode, Listing.chain]
  | append_singleton items item ih =>
    have hlink := listing.link_concat cell tail items item
    simp only [Listing.link, Said.after] at hlink
    injection hlink with hnode hchain
    rw [List.length_append, List.length_singleton] at hnode
    rw [List.length_append, List.length_singleton, List.range_succ, List.map_append,
      List.zip_append (by simp), List.reverse_append, hnode, hchain]
    refine (ih (cell items.length) _).trans ?_
    simp [listing]

/-- The first of the children behind a position, then the others. -/
theorem Follows.children {f : α → ReaderM β} {place : Path} {i : Nat}
    {then' : α → (Spot → Nat) → β → Prop} (h : Follows walk (Spot.IsInside (i :: place)) gives)
    (hf : ∀ a, Follows (f a) (Spot.IsBehind place (i + 1)) (then' a)) :
    Follows (walk >>= f) (Spot.IsBehind place i) fun number b =>
      ∃ a, gives number a ∧ then' a number b :=
  h.bind hf (fun _ h => h.behind) (fun _ h => h.mono (Nat.le_succ i)) fun _ h => h.not_behind

section Places

variable (scope : IriScope) (inTemplate : Bool)

mutual

/-- The walk takes a node for the place that it means, with the patterns in it. -/
theorem readPlace_follows (place : Path) : ∀ node : Node,
    Follows (readPlace scope inTemplate node) (Spot.IsInside place) fun number r =>
      saidPlace number scope inTemplate place node = .means r.1 r.2
  | .node rule start text children => by
    unfold readPlace
    split
    · exact follows_pure fun _ => rfl
    · exact follows_pure fun _ => rfl
    · refine (((follows_anonymousPlace inTemplate (.node place)).mono ?_).last (·, [])).imp ?_
      · rintro _ rfl
        exact Spot.isInside_node place
      · rintro number _ ⟨_, rfl, rfl⟩
        rfl
    · exact follows_pure fun _ => rfl
    · refine ((follows_anonymousPlace inTemplate (.node place)).bind (fun own =>
        (readProperties_follows place 0 own children).last (own, ·)) ?_ ?_ ?_).imp ?_
      · rintro _ rfl
        exact Spot.isInside_node place
      · exact fun _ h => h.inside
      · rintro _ rfl
        exact Spot.not_behind_of_place rfl
      · rintro number _ ⟨_, rfl, patterns, hproperties, rfl⟩
        rw [saidPlace, hproperties]
        simp [Said.means_bind, pure, Said.after]
    · refine ((readPlaces_follows place 0 children).bind (fun read =>
        (follows_cells inTemplate place read.1 0).last fun found =>
          linkCells (found.zip read.1).reverse (.term (.iri Vocabulary.rdfNil)) read.2) ?_ ?_ ?_).imp ?_
      · exact fun _ h => h.inside
      · rintro _ ⟨j, -, rfl⟩
        exact List.suffix_rfl
      · rintro _ hbehind ⟨j, -, rfl⟩
        exact Spot.not_behind_of_place (s := .cell place j) rfl hbehind
      · rintro number _ ⟨⟨items, inner⟩, hitems, _, rfl, rfl⟩
        rw [saidPlace, hitems, ← List.range_eq_range', linkCells_eq]
        rfl
    · refine (((isSteady_readTerm scope _).follows.mono fun _ h => h.elim).last
        fun t => (Place.term t, [])).imp ?_
      rintro number _ ⟨t, hterm, rfl⟩
      rw [saidPlace, hterm]
      · rfl
      all_goals assumption

/-- Places in a row are read as the nodes say. -/
theorem readPlaces_follows (place : Path) (i : Nat) : ∀ nodes : List Node,
    Follows (readPlaces scope inTemplate nodes) (Spot.IsBehind place i) fun number r =>
      saidPlaces number scope inTemplate place i nodes = .means r.1 r.2
  | [] => follows_pure fun _ => rfl
  | node :: nodes => by
    refine ((readPlace_follows (i :: place) node).children fun first =>
      (readPlaces_follows place (i + 1) nodes).last fun more =>
        (first.1 :: more.1, first.2 ++ more.2)).imp ?_
    rintro number _ ⟨first, hfirst, more, hmore, rfl⟩
    rw [saidPlaces, hfirst, Said.means_bind, hmore]
    simp [Said.means_bind, pure, Said.after]

/-- A list of properties is read as the nodes say. -/
theorem readProperties_follows (place : Path) (i : Nat) (subject : Place) : ∀ nodes : List Node,
    Follows (readProperties scope inTemplate subject nodes) (Spot.IsBehind place i)
      fun number patterns =>
        saidProperties number scope inTemplate place i subject nodes = .means () patterns
  | [] => follows_pure fun _ => rfl
  | .node _ _ _ items :: _ =>
    (readVerbObjects_follows (i :: place) 0 subject items).mono fun _ h => h.inside.behind

/-- Verbs with their objects are read as the nodes say. -/
theorem readVerbObjects_follows (place : Path) (i : Nat) (subject : Place) : ∀ nodes : List Node,
    Follows (readVerbObjects scope inTemplate subject nodes) (Spot.IsBehind place i)
      fun number patterns =>
        saidVerbObjects number scope inTemplate place i subject nodes = .means () patterns
  | [] => follows_pure fun _ => rfl
  | [_] => follows_pure fun _ => rfl
  | verb :: .node _ _ _ objects :: rest => by
    refine ((isSteady_readVerb scope verb).follows.then fun predicate =>
      (((readObjects_follows ((i + 1) :: place) 0 subject predicate objects).mono
        fun _ h => h.inside).children fun patterns =>
          (readVerbObjects_follows place (i + 2) subject rest).last (patterns ++ ·)).mono
            fun _ h => h.mono (Nat.le_succ i)).imp ?_
    rintro number _ ⟨predicate, hverb, patterns, hobjects, more, hmore, rfl⟩
    rw [saidVerbObjects, hverb, Said.means_bind, hobjects, Said.means_bind, hmore]
    rfl

/-- Objects in a row are read as the nodes say. -/
theorem readObjects_follows (place : Path) (i : Nat) (subject predicate : Place) :
    ∀ nodes : List Node,
      Follows (readObjects scope inTemplate subject predicate nodes) (Spot.IsBehind place i)
        fun number patterns =>
          saidObjects number scope inTemplate place i subject predicate nodes = .means () patterns
  | [] => follows_pure fun _ => rfl
  | node :: nodes => by
    refine ((readPlace_follows (i :: place) node).children fun object =>
      (readObjects_follows place (i + 1) subject predicate nodes).last fun more =>
        object.2 ++ ⟨subject, predicate, object.1⟩ :: more).imp ?_
    rintro number _ ⟨object, hobject, more, hmore, rfl⟩
    rw [saidObjects, hobject, Said.means_bind, Said.say, Said.means_bind, hmore]
    rfl

end

/-- A statement is read as the node says. -/
theorem readSameSubject_follows (place : Path) (node : Node) :
    Follows (readSameSubject scope inTemplate node) (Spot.IsInside place) fun number patterns =>
      saidSameSubject number scope inTemplate place node = .means () patterns := by
  obtain ⟨rule, start, text, children⟩ := node
  cases children with
  | nil => exact follows_pure fun _ => rfl
  | cons first rest =>
    refine (((readPlace_follows scope inTemplate (0 :: place) first).children fun subject =>
      (readProperties_follows scope inTemplate place 1 subject.1 rest).last
        (subject.2 ++ ·)).mono fun _ h => h.inside).imp ?_
    rintro number _ ⟨subject, hsubject, patterns, hproperties, rfl⟩
    unfold saidSameSubject
    dsimp only [ParseTree.children]
    rw [hsubject, Said.means_bind, hproperties]
    rfl

/-- The walk takes a block for the patterns that it says. -/
theorem readBlocks_follows (place : Path) (nodes : List Node) :
    Follows (readBlocks scope inTemplate nodes) (Spot.IsBehind place 0) fun number patterns =>
      saidBlocks number scope inTemplate place 0 nodes = .means () patterns := by
  have hblocks : ∀ i, Follows (nodes.mapM (readSameSubject scope inTemplate))
      (Spot.IsBehind place i) fun number blocks =>
        saidBlocks number scope inTemplate place i nodes = .means () blocks.flatten := by
    intro i
    induction nodes generalizing i with
    | nil => exact follows_pure fun _ => rfl
    | cons node nodes ih =>
      rw [List.mapM_cons]
      refine ((readSameSubject_follows scope inTemplate (i :: place) node).children fun patterns =>
        (ih (i + 1)).last (patterns :: ·)).imp ?_
      rintro number _ ⟨patterns, hpatterns, blocks, hblocks, rfl⟩
      rw [saidBlocks, hpatterns, Said.means_bind, hblocks]
      rfl
  refine ((hblocks 0).last List.flatten).imp ?_
  rintro number _ ⟨blocks, hsaid, rfl⟩
  exact hsaid

end Places

end RdfStore.Query
