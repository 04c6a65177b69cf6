import RdfStore.Proofs.Eval.TemplateGraph
import RdfStore.Proofs.Store.NameSearch

/-!
# New blank nodes

Stores and templates need blank nodes that no term of the store is. Both search for a free name, one
attempt after the other. Every search of a run of calls ends, soon enough for the number of terms,
and gives a name that the store does not know at that moment and that no earlier search of the run
gave. The same holds of the searches that one query makes for its template.
-/

set_option autoImplicit false

namespace RdfStore.Eval

open Query

variable {s : Store}

/-! ## The search for one name -/

/-- A search for a name from a number on. -/
abbrev FindsName (s : Store) (counter attempts : Nat) (result : BlankNode × Nat) : Prop :=
  Search (fun n => (numbered n, n + 1)) (fun _ node => s.containsTerm (.blank node)) counter
    attempts result

/-- With attempts left, the next name is taken unless it is known. -/
theorem freeName_succ (s : Store) (fuel counter : Nat) :
    freeName s (fuel + 1) counter =
      if s.containsTerm (.blank (numbered counter)) then freeName s fuel (counter + 1)
      else (numbered counter, counter + 1) := rfl

/-- With a bound that leads to a free name, the search ends within the bound. -/
theorem findsName_of_free (fuel counter : Nat)
    (h : s.containsTerm (.blank (freeName s fuel counter).1) = false) :
    ∃ attempts ≤ fuel + 1, FindsName s counter attempts (freeName s fuel counter) := by
  induction fuel generalizing counter with
  | zero => exact ⟨1, Nat.le_refl _, .free h⟩
  | succ fuel ih =>
    rw [freeName_succ] at h ⊢
    by_cases hknown : s.containsTerm (.blank (numbered counter)) = true
    · rw [if_pos hknown] at h ⊢
      obtain ⟨attempts, hle, hfinds⟩ := ih (counter + 1) h
      exact ⟨attempts + 1, Nat.succ_le_succ hle, .taken hknown hfinds⟩
    · rw [if_neg hknown] at h ⊢
      exact ⟨1, Nat.succ_le_succ (Nat.zero_le _), .free h⟩

/-- What is promised of a new node for a template: its search ends after as many attempts as the
store has terms, and one more at most, and the store does not know it. -/
structure GivesName (s : Store) (counter : Nat) : Prop where
  ends : ∃ attempts ≤ s.termCount + 1,
    FindsName s counter attempts (freeName s s.termCount counter)
  unknown : s.containsTerm (.blank (freeName s s.termCount counter).1) = false

/-- The store can name a new node, whatever the counter has reached. -/
theorem givesName (hs : s.IsCoherent) (counter : Nat) : GivesName s counter := by
  obtain ⟨n, -, hname, hfree⟩ := freeName_free hs counter
  have hunknown : s.containsTerm (.blank (freeName s s.termCount counter).1) = false := by
    rw [hname]
    exact hfree
  exact ⟨findsName_of_free s.termCount counter hunknown, hunknown⟩

/-! ## The nodes of a query -/

/-- The nodes that the labels of a template were given. -/
def Minting.given (m : Minting) : List BlankNode := m.nodes.map Prod.snd

/-- The new nodes for a template at the given solutions. -/
def newNodes (env : Env) (template : List Pattern) (counter : Nat) :
    List Solution → List BlankNode
  | [] => []
  | row :: rest =>
    let m := (instantiate env row ⟨counter, []⟩ template).2
    m.given ++ newNodes env template m.counter rest

/-- Different nodes that the store does not know, with numbers of a span. -/
structure AreNew (s : Store) (low high : Nat) (nodes : List BlankNode) : Prop where
  le : low ≤ high
  counted : ∀ node ∈ nodes, ∃ n, low ≤ n ∧ n < high ∧ node = numbered n
  unknown : ∀ node ∈ nodes, s.containsTerm (.blank node) = false
  nodup : nodes.Nodup

/-- No nodes are new ones. -/
theorem AreNew.nil (s : Store) (counter : Nat) : AreNew s counter counter [] :=
  ⟨Nat.le_refl _, fun _ h => absurd h List.not_mem_nil, fun _ h => absurd h List.not_mem_nil,
    List.nodup_nil⟩

/-- A free name joins nodes with smaller numbers. -/
theorem AreNew.cons {low high n : Nat} {nodes : List BlankNode} (h : AreNew s low high nodes)
    (hn : high ≤ n) (hfree : s.containsTerm (.blank (numbered n)) = false) :
    AreNew s low (n + 1) (numbered n :: nodes) := by
  have hle := h.le
  refine ⟨by omega, ?_, ?_, List.nodup_cons.mpr ⟨fun hmem => ?_, h.nodup⟩⟩
  · intro node hnode
    rcases List.mem_cons.mp hnode with rfl | hnode
    · exact ⟨n, by omega, Nat.lt_succ_self n, rfl⟩
    · obtain ⟨k, hlow, hhigh, hk⟩ := h.counted node hnode
      exact ⟨k, hlow, by omega, hk⟩
  · intro node hnode
    rcases List.mem_cons.mp hnode with rfl | hnode
    · exact hfree
    · exact h.unknown node hnode
  · obtain ⟨k, -, hk, heq⟩ := h.counted _ hmem
    have := numbered_injective heq
    omega

/-- Nodes of later spans join those of earlier ones. -/
theorem AreNew.append {low middle high : Nat} {nodes more : List BlankNode}
    (h : AreNew s low middle nodes) (h' : AreNew s middle high more) :
    AreNew s low high (nodes ++ more) := by
  refine ⟨Nat.le_trans h.le h'.le, ?_, ?_, List.nodup_append.mpr ⟨h.nodup, h'.nodup, ?_⟩⟩
  · intro node hnode
    rcases List.mem_append.mp hnode with hnode | hnode
    · obtain ⟨n, hlow, hn, heq⟩ := h.counted node hnode
      exact ⟨n, hlow, Nat.lt_of_lt_of_le hn h'.le, heq⟩
    · obtain ⟨n, hn, hhigh, heq⟩ := h'.counted node hnode
      exact ⟨n, Nat.le_trans h.le hn, hhigh, heq⟩
  · intro node hnode
    rcases List.mem_append.mp hnode with hnode | hnode
    · exact h.unknown node hnode
    · exact h'.unknown node hnode
  · intro a ha b hb heq
    obtain ⟨n, -, hn, rfl⟩ := h.counted a ha
    obtain ⟨k, hk, -, rfl⟩ := h'.counted b hb
    have := numbered_injective heq
    omega

/-- What minting keeps, making instances of a template keeps. -/
theorem instantiate_keeps {P : Minting → Prop} {env : Env} (row : Solution)
    (hmint : ∀ m label, P m → P (mint env.store m label).2) {m : Minting} (h : P m)
    (template : List Pattern) : P (instantiate env row m template).2 := by
  have hplace : ∀ m place, P m → P (instantiatePlace env row m place).2 := by
    intro m place hm
    cases place with
    | term t => exact hm
    | var name => exact hm
    | blank label => exact hmint m label hm
  have hplaces : ∀ places m, P m → P (instantiatePlaces env row m places).2 := by
    intro places
    induction places with
    | nil => exact fun _ hm => hm
    | cons place rest ih =>
      intro m hm
      rw [instantiatePlaces_cons]
      cases (instantiatePlace env row m place).1 with
      | none => exact hplace m place hm
      | some t => exact ih _ (hplace m place hm)
  induction template generalizing m with
  | nil => exact h
  | cons p rest ih => exact ih (hplaces p.places m h)

/-- The nodes given for a template at one solution are new ones. -/
theorem areNew_given {env : Env} (hs : env.store.IsCoherent) (row : Solution) (counter : Nat)
    (template : List Pattern) :
    AreNew env.store counter (instantiate env row ⟨counter, []⟩ template).2.counter
      (instantiate env row ⟨counter, []⟩ template).2.given := by
  refine instantiate_keeps (P := fun m => AreNew env.store counter m.counter m.given) row ?_
    (AreNew.nil env.store counter) template
  intro m label hm
  unfold mint
  cases m.nodes.lookup label with
  | some node => exact hm
  | none =>
    obtain ⟨n, hn, hname, hfree⟩ := freeName_free hs m.counter
    dsimp only
    rw [hname]
    exact hm.cons hn hfree

/-- So are the nodes given at all solutions. -/
theorem areNew_newNodes {env : Env} (hs : env.store.IsCoherent) (template : List Pattern)
    (counter : Nat) (rows : List Solution) :
    ∃ last, AreNew env.store counter last (newNodes env template counter rows) := by
  induction rows generalizing counter with
  | nil => exact ⟨counter, .nil env.store counter⟩
  | cons row rest ih =>
    have hfirst := areNew_given hs row counter template
    obtain ⟨last, hrest⟩ := ih (instantiate env row ⟨counter, []⟩ template).2.counter
    exact ⟨last, hfirst.append hrest⟩

/-! ## Runs -/

/-- In every run of a store, on any clock, every search for a fresh blank node gives one that the
store does not know and that no earlier search of the run gave; and at the end of the run every
search for a template gives a node that the store does not know, the searches of one query
different ones. -/
theorem freshNames (clock : Clock) (calls : List Store.Call) :
    ((∀ moment ∈ (Store.empty clock).allMoments calls, moment.GivesFreshBlank) ∧
      (((Store.empty clock).allMoments calls).map fun moment => moment.freshBlank.1).Nodup) ∧
    (∀ counter, GivesName ((Store.empty clock).performAll calls).2 counter) ∧
    ∀ (names : Slots) (template : List Pattern) (rows : List Solution),
      (newNodes ⟨((Store.empty clock).performAll calls).2, names⟩ template 0 rows).Nodup := by
  have hasks := Store.asks_performAll (Store.isCoherent_empty clock) calls
  refine ⟨⟨fun moment hmoment => Store.givesFreshBlank (hasks.moment moment hmoment), hasks.nodup⟩,
    givesName hasks.coherent, fun names template rows => ?_⟩
  obtain ⟨_, hnew⟩ := @areNew_newNodes ⟨((Store.empty clock).performAll calls).2, names⟩
    hasks.coherent template 0 rows
  exact hnew.nodup

/-- A triple about the node that a stopped clock names first. -/
def reserved : Triple :=
  ⟨.blank ⟨"t0n0"⟩, ⟨"http://example.org/knows"⟩, .iri ⟨"http://example.org/ann"⟩⟩

/-- A run on a clock that does not move: the first name is stored, a node is asked for, everything
is removed, and the triple is added as a batch of its own. -/
def reservedCalls : List Store.Call :=
  [.add reserved, .freshBlank, .clear, .insertScoped [reserved]]

/-- The node that is asked for is not the stored one, and the batch does not get it once more after
everything was removed. -/
theorem freshNames_reserved :
    ∃ first second,
      (Store.empty ⟨0, 0⟩).allMoments reservedCalls = [first, second] ∧
      first.GivesFreshBlank ∧ second.GivesFreshBlank ∧
      first.freshBlank.1 ≠ ⟨"t0n0"⟩ ∧ first.freshBlank.1 ≠ second.freshBlank.1 := by
  obtain ⟨⟨hgives, hnodup⟩, -⟩ := freshNames ⟨0, 0⟩ reservedCalls
  have hmoments : (Store.empty ⟨0, 0⟩).allMoments reservedCalls = [_, _] := rfl
  rw [hmoments] at hgives hnodup
  have hfirst := hgives _ List.mem_cons_self
  have hstored : (((Store.empty ⟨0, 0⟩).perform (.add reserved)).2).containsTerm
      (.blank ⟨"t0n0"⟩) = true :=
    Store.containsTerm_of_mentions
      ((Store.contains_add (Store.isCoherent_empty _)).mpr (Or.inl rfl)) (Or.inl rfl)
  refine ⟨_, _, hmoments, hfirst, hgives _ (List.mem_cons_of_mem _ List.mem_cons_self),
    fun heq => ?_, fun heq => ?_⟩
  · have hunknown := hfirst.unknown
    rw [heq, hstored] at hunknown
    cases hunknown
  · exact (List.nodup_cons.mp hnodup).1 (List.mem_singleton.mpr heq)

end RdfStore.Eval
