import Mathlib.Data.List.Forall2
import RdfStore.Proofs.Query.Yields

/-!
# Walks that agree

Two walks agree if they leave the same number for the next blank node and give related results, or
both fail, maybe for different reasons and at different places. One rule for each way in which
walks are put together.
-/

set_option autoImplicit false

namespace RdfStore.Query

open RdfStore.Syntax

/-- Two results are related, or both are failures. -/
def AlikeResults {α β : Type} (r : α → β → Prop) : Except Failure α → Except Failure β → Prop
  | .ok a, .ok b => r a b
  | .error _, .error _ => True
  | _, _ => False

/-- Two walks leave the same number and give results that are alike. -/
def Agree {α β : Type} (r : α → β → Prop) (walk : ReaderM α) (walk' : ReaderM β) : Prop :=
  ∀ n, (walk'.run.run n).2 = (walk.run.run n).2 ∧
    AlikeResults r (walk.run.run n).1 (walk'.run.run n).1

section Agree

variable {α β γ δ : Type} {r : α → β → Prop} {q : γ → δ → Prop} {walk : ReaderM α}
  {walk' : ReaderM β}

/-- Walks that give related values agree. -/
theorem agree_pure {a : α} {b : β} (h : r a b) : Agree r (pure a) (pure b) := fun _ => ⟨rfl, h⟩

/-- Walks that stop agree, whatever the reasons. -/
theorem agree_throw (f f' : Failure) : Agree r (throw f : ReaderM α) (throw f' : ReaderM β) :=
  fun _ => ⟨rfl, trivial⟩

/-- Refusals agree, whatever they say. -/
theorem agree_refuse (node node' : Node) (problem problem' : Problem) :
    Agree r (refuse node problem : ReaderM α) (refuse node' problem' : ReaderM β) :=
  agree_throw _ _

/-- Refusals for a feature agree, whatever it is. -/
theorem agree_unsupported (feature feature' : Feature) :
    Agree r (unsupported feature : ReaderM α) (unsupported feature' : ReaderM β) :=
  agree_throw _ _

/-- Outcomes that are computed agree if they are alike. -/
theorem agree_mk {a : Except Failure α} {b : Except Failure β} (h : AlikeResults r a b) :
    Agree r (ExceptT.mk (pure a) : ReaderM α) (ExceptT.mk (pure b) : ReaderM β) := fun _ => ⟨rfl, h⟩

/-- A walk agrees with itself. -/
theorem agree_refl (walk : ReaderM α) : Agree Eq walk walk := by
  intro n
  refine ⟨rfl, ?_⟩
  cases (walk.run.run n).1 with
  | ok a => exact rfl
  | error f => trivial

/-- Walks agree that go on from alike results with walks that agree. -/
theorem Agree.bind {f : α → ReaderM γ} {f' : β → ReaderM δ} (h : Agree r walk walk')
    (hf : ∀ a b, r a b → Agree q (f a) (f' b)) : Agree q (walk >>= f) (walk' >>= f') := by
  intro n
  obtain ⟨hnumber, hresult⟩ := h n
  rw [run_bind, run_bind]
  rcases hwalk : walk.run.run n with ⟨e | a, k⟩ <;>
    rcases hwalk' : walk'.run.run n with ⟨e' | b, k'⟩ <;>
    rw [hwalk, hwalk'] at hnumber hresult
  · exact ⟨hnumber, trivial⟩
  · exact hresult.elim
  · exact hresult.elim
  · obtain rfl : k' = k := hnumber
    exact hf a b hresult k'

/-- The same with results that are the same. -/
theorem Agree.then {walk walk' : ReaderM α} {f : α → ReaderM γ} {f' : α → ReaderM δ}
    (h : Agree Eq walk walk') (hf : ∀ a, Agree q (f a) (f' a)) :
    Agree q (walk >>= f) (walk' >>= f') :=
  h.bind fun a _ heq => heq ▸ hf a

/-- Walks that are kept with their failures agree. -/
theorem Agree.observe (h : Agree r walk walk') :
    Agree (AlikeResults r) (observe walk) (Query.observe walk') := by
  intro n
  rw [run_observe, run_observe]
  exact h n

/-- Walks over lists give the same if those over their members do. -/
theorem agree_mapM {f : γ → ReaderM α} {f' : δ → ReaderM α} {list : List γ} {list' : List δ}
    (h : List.Forall₂ q list list') (hf : ∀ c d, q c d → Agree Eq (f c) (f' d)) :
    Agree Eq (list.mapM f) (list'.mapM f') := by
  induction h with
  | nil =>
    rw [List.mapM_nil, List.mapM_nil]
    exact agree_pure rfl
  | cons hfirst _ ih =>
    rw [List.mapM_cons, List.mapM_cons]
    exact (hf _ _ hfirst).then fun _ => ih.then fun _ => agree_pure rfl

/-- Walks that go on from what they have agree if every step does. -/
theorem agree_foldlM {f : α → γ → ReaderM α} {f' : α → δ → ReaderM α} {list : List γ}
    {list' : List δ} (h : List.Forall₂ q list list')
    (hf : ∀ a c d, q c d → Agree Eq (f a c) (f' a d)) (a : α) :
    Agree Eq (list.foldlM f a) (list'.foldlM f' a) := by
  induction h generalizing a with
  | nil => exact agree_refl _
  | cons hfirst _ ih =>
    rw [List.foldlM_cons, List.foldlM_cons]
    exact (hf a _ _ hfirst).then ih

/-- Mapped walks agree. -/
theorem Agree.map {walk walk' : ReaderM α} (h : Agree Eq walk walk') (f : α → γ) :
    Agree Eq (f <$> walk) (f <$> walk') :=
  h.then fun _ => agree_pure rfl

/-- Agreement goes both ways. -/
theorem Agree.symm {walk walk' : ReaderM α} (h : Agree Eq walk walk') : Agree Eq walk' walk := by
  intro n
  obtain ⟨hnumber, hresult⟩ := h n
  refine ⟨hnumber.symm, ?_⟩
  generalize (walk.run.run n).1 = a at hresult ⊢
  generalize (walk'.run.run n).1 = b at hresult ⊢
  cases a <;> cases b <;> first | exact trivial | exact hresult.elim | exact Eq.symm hresult

/-- Walks that agree with a third agree. -/
theorem Agree.trans {walk walk' walk'' : ReaderM α} (h : Agree Eq walk walk')
    (h' : Agree Eq walk' walk'') : Agree Eq walk walk'' := by
  intro n
  obtain ⟨hnumber, hresult⟩ := h n
  obtain ⟨hnumber', hresult'⟩ := h' n
  refine ⟨hnumber'.trans hnumber, ?_⟩
  generalize (walk.run.run n).1 = a at hresult ⊢
  generalize (walk'.run.run n).1 = b at hresult hresult'
  generalize (walk''.run.run n).1 = c at hresult' ⊢
  cases a <;> cases b <;> cases c <;>
    first
    | exact trivial
    | exact hresult.elim
    | exact hresult'.elim
    | exact Eq.trans hresult hresult'

/-- What is taken from tokens agrees if one is taken where the other is. -/
theorem agree_take {a b : Except TokenFailure α} (h : ∀ x, a = .ok x → b = .ok x)
    (h' : ∀ x, b = .ok x → a = .ok x) : Agree Eq (take a) (take b) := by
  cases a with
  | ok x =>
    rw [h x rfl]
    exact agree_refl _
  | error e =>
    cases b with
    | ok x => cases h' x rfl
    | error e' => exact agree_throw _ _

end Agree

end RdfStore.Query
