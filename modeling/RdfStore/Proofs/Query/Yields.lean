import RdfStore.Query.Reader

/-!
# What a walk gives

A walk over the nodes of a query yields a property when every result that it gives has it,
whatever the number of the next blank node; nothing is said of walks that stop. One rule for
each way in which walks are put together.
-/

set_option autoImplicit false

namespace RdfStore.Query

/-- Every result of a walk has a property. -/
def Yields {α : Type} (walk : ReaderM α) (p : α → Prop) : Prop :=
  ∀ n a k, walk.run.run n = (.ok a, k) → p a

variable {α β : Type} {walk : ReaderM α} {p q : α → Prop}

/-- How a walk goes on with another. -/
theorem run_bind (walk : ReaderM α) (f : α → ReaderM β) (n : Nat) :
    (walk >>= f).run.run n = match walk.run.run n with
      | (.ok a, n') => (f a).run.run n'
      | (.error e, n') => (.error e, n') := by
  show (ExceptT.bindCont f (walk.run.run n).1).run (walk.run.run n).2 = _
  rcases walk.run.run n with ⟨_ | _, _⟩ <;> rfl

/-- How a walk runs that is kept with its failure. -/
theorem run_observe (walk : ReaderM α) (n : Nat) :
    (observe walk).run.run n = (.ok (walk.run.run n).1, (walk.run.run n).2) := by
  show (match walk.run.run n with | (r, n') => (Except.ok r, n')) = _
  rfl

/-- A property of all results is a property of each. -/
theorem Yields.mono (h : Yields walk p) (hpq : ∀ a, p a → q a) : Yields walk q :=
  fun n a k hrun => hpq a (h n a k hrun)

/-- Two facts about the value of a walk hold together. -/
theorem Yields.and (h : Yields walk p) (h' : Yields walk q) : Yields walk fun a => p a ∧ q a :=
  fun n a k hrun => ⟨h n a k hrun, h' n a k hrun⟩

/-- A walk may yield anything at all. -/
theorem yields_true (walk : ReaderM α) : Yields walk fun _ => True := fun _ _ _ _ => trivial

/-- A value is its own result. -/
theorem yields_pure {a : α} (h : p a) : Yields (pure a) p := by
  intro n b k hrun
  cases hrun
  exact h

/-- A walk that stops has no result. -/
theorem yields_throw (f : Failure) : Yields (throw f : ReaderM α) p := by
  intro n a k hrun
  cases hrun

/-- A refusal has no result. -/
theorem yields_refuse (node : Node) (problem : Problem) :
    Yields (refuse node problem : ReaderM α) p := yields_throw _

/-- An unsupported feature has no result. -/
theorem yields_unsupported (feature : Feature) : Yields (unsupported feature : ReaderM α) p :=
  yields_throw _

/-- A computed outcome gives its value. -/
theorem yields_mk {r : Except Failure α} (h : ∀ a, r = .ok a → p a) :
    Yields (ExceptT.mk (pure r) : ReaderM α) p := by
  intro n a k hrun
  cases hrun
  exact h a rfl

/-- One walk after another yields what the second does after any result of the first. -/
theorem Yields.bind {f : α → ReaderM β} {r : β → Prop} (h : Yields walk p)
    (hf : ∀ a, p a → Yields (f a) r) : Yields (walk >>= f) r := by
  intro n b k hrun
  rw [run_bind] at hrun
  rcases hwalk : walk.run.run n with ⟨e | a, n'⟩
  · rw [hwalk] at hrun
    cases hrun
  · rw [hwalk] at hrun
    exact hf a (h n a n' hwalk) n' b k hrun

/-- A mapped result is the image of one. -/
theorem Yields.map {f : α → β} {r : β → Prop} (h : Yields walk p) (hf : ∀ a, p a → r (f a)) :
    Yields (f <$> walk) r :=
  h.bind fun a ha => yields_pure (hf a ha)

/-- A walk that is kept with its failure gives the result of the walk, if there is one. -/
theorem Yields.observe (h : Yields walk p) :
    Yields (observe walk) fun r => ∀ a, r = .ok a → p a := by
  intro n r k hrun a hr
  rw [run_observe] at hrun
  obtain ⟨hresult, rfl⟩ := Prod.mk.inj hrun
  refine h n a _ (Prod.ext ?_ rfl)
  exact (Except.ok.inj hresult).trans hr

/-- Walks over a list give results for all of its members. -/
theorem yields_mapM {f : α → ReaderM β} {r : β → Prop} {list : List α}
    (h : ∀ a ∈ list, Yields (f a) r) : Yields (list.mapM f) fun results => ∀ b ∈ results, r b := by
  induction list with
  | nil =>
    rw [List.mapM_nil]
    exact yields_pure fun b hb => absurd hb List.not_mem_nil
  | cons a rest ih =>
    rw [List.mapM_cons]
    refine (h a List.mem_cons_self).bind fun b hb => ?_
    refine (ih fun c hc => h c (List.mem_cons_of_mem a hc)).bind fun others hothers => ?_
    exact yields_pure fun c hc => (List.mem_cons.mp hc).elim (fun heq => heq ▸ hb) (hothers c)

/-- A walk that goes on from what it has keeps what every step keeps. -/
theorem yields_foldlM {f : β → α → ReaderM β} {r : β → Prop} {list : List α} {b : β} (hb : r b)
    (h : ∀ b, ∀ a ∈ list, r b → Yields (f b a) r) : Yields (list.foldlM f b) r := by
  induction list generalizing b with
  | nil => exact yields_pure hb
  | cons a rest ih =>
    rw [List.foldlM_cons]
    refine (h b a List.mem_cons_self hb).bind fun c hc => ?_
    exact ih hc fun b d hd => h b d (List.mem_cons_of_mem a hd)

end RdfStore.Query
