/-!
# Steps that can fail

What comes out of steps one after the other comes out of every one of them.
-/

set_option autoImplicit false

namespace RdfStore

universe u v w

variable {ε : Type u} {α : Type v} {β : Type w}

/-- What comes out of a step after another comes out of what the first gives. -/
theorem bind_eq_ok {r : Except ε α} {f : α → Except ε β} {b : β} (h : r.bind f = .ok b) :
    ∃ a, r = .ok a ∧ f a = .ok b := by
  cases r with
  | error e => cases h
  | ok a => exact ⟨a, rfl, h⟩

/-- A result that was changed by `map` was a success before. -/
theorem map_eq_ok {r : Except ε α} {f : α → β} {b : β} (h : r.map f = .ok b) :
    ∃ a, r = .ok a ∧ f a = b := by
  cases r with
  | error e => cases h
  | ok a => exact ⟨a, rfl, Except.ok.inj h⟩

/-- A change of the errors leaves a success as it is. -/
theorem mapError_eq_ok {ε' : Type w} {r : Except ε α} {f : ε → ε'} {a : α}
    (h : r.mapError f = .ok a) : r = .ok a := by
  cases r with
  | error e => cases h
  | ok b => exact congrArg Except.ok (Except.ok.inj h)

/-- What steps over a list give comes from members of the list. -/
theorem exists_of_mem_mapM {f : α → Option β} {list : List α} {results : List β}
    (h : list.mapM f = some results) : ∀ b ∈ results, ∃ a ∈ list, f a = some b := by
  induction list generalizing results with
  | nil =>
    cases h
    exact fun _ hb => absurd hb List.not_mem_nil
  | cons a rest ih =>
    rw [List.mapM_cons] at h
    obtain ⟨first, hfirst, h⟩ := Option.bind_eq_some_iff.mp h
    obtain ⟨others, hothers, h⟩ := Option.bind_eq_some_iff.mp h
    cases h
    intro b hb
    rcases List.mem_cons.mp hb with rfl | hb
    · exact ⟨a, List.mem_cons_self, hfirst⟩
    · obtain ⟨c, hc, hbc⟩ := ih hothers b hb
      exact ⟨c, List.mem_cons_of_mem _ hc, hbc⟩

/-- Steps over a list that all succeed give the list of what they give. -/
theorem mapM_map_eq_some {γ : Type w} {f : β → Option γ} {g : α → β} {k : α → γ} {list : List α}
    (h : ∀ a ∈ list, f (g a) = some (k a)) : (list.map g).mapM f = some (list.map k) := by
  induction list with
  | nil => rfl
  | cons a rest ih =>
    rw [List.map_cons, List.mapM_cons, h a List.mem_cons_self,
      ih fun b hb => h b (List.mem_cons_of_mem _ hb)]
    rfl

end RdfStore
