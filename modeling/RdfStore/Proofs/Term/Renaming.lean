import RdfStore.Term.Basic
import Std.Data.String.ToNat

/-!
# Renaming blank nodes

Triples with their blank nodes renamed. Only the names of the blank nodes that a triple
mentions matter. Names are numbered after a stem and kept in tables, newest first.
-/

set_option autoImplicit false

namespace RdfStore

/-! ## Names -/

/-- Blank nodes that are numbered differently after one stem differ. -/
theorem numbered_injective {stem : String} {m n : Nat}
    (h : (⟨stem ++ toString m⟩ : BlankNode) = ⟨stem ++ toString n⟩) : m = n := by
  have hlist := congrArg (fun node => node.label.toList) h
  simp only [String.toList_append] at hlist
  exact Nat.repr_inj.mp (String.toList_inj.mp (List.append_cancel_left hlist))

/-- A name in front of a table is looked up for its key alone. -/
theorem lookup_cons_cases {κ β : Type} [BEq κ] [LawfulBEq κ] {table : List (κ × β)}
    {key a : κ} {new b : β} (h : List.lookup a ((key, new) :: table) = some b) :
    a = key ∧ b = new ∨ table.lookup a = some b := by
  rw [List.lookup_cons] at h
  split at h
  · rename_i heq
    exact Or.inl ⟨eq_of_beq heq, (Option.some.inj h).symm⟩
  · exact Or.inr h

/-- A name in front of a table leaves the names of other keys. -/
theorem lookup_cons_of_lookup {κ β : Type} [BEq κ] [LawfulBEq κ] {table : List (κ × β)}
    {key a : κ} {new b : β} (hkey : table.lookup key = none) (h : table.lookup a = some b) :
    List.lookup a ((key, new) :: table) = some b := by
  rw [List.lookup_cons]
  split
  · rename_i heq
    rw [eq_of_beq heq, hkey] at h
    cases h
  · exact h

/-- A name in front of a table that gives different keys different names does so too, if the table
does not give this name. -/
theorem lookup_cons_injective {κ β : Type} [BEq κ] [LawfulBEq κ] {table : List (κ × β)}
    {key : κ} {new : β}
    (h : ∀ a b c, table.lookup a = some c → table.lookup b = some c → a = b)
    (hnew : ∀ a c, table.lookup a = some c → c ≠ new) (a b : κ) (c : β)
    (ha : List.lookup a ((key, new) :: table) = some c)
    (hb : List.lookup b ((key, new) :: table) = some c) : a = b := by
  rcases lookup_cons_cases ha with ⟨hakey, hc⟩ | ha
  · rcases lookup_cons_cases hb with ⟨hbkey, -⟩ | hb
    · rw [hakey, hbkey]
    · exact absurd hc (hnew b c hb)
  · rcases lookup_cons_cases hb with ⟨-, hc⟩ | hb
    · exact absurd hc (hnew a c ha)
    · exact h a b c ha hb

/-! ## Triples under other names -/

/-- The subject with its blank node renamed. -/
def Subject.mapBlank (f : BlankNode → BlankNode) : Subject → Subject
  | .iri node => .iri node
  | .blank node => .blank (f node)

/-- The term with its blank node renamed. -/
def Term.mapBlank (f : BlankNode → BlankNode) : Term → Term
  | .blank node => .blank (f node)
  | term => term

/-- Renamings that agree on the blank node of a subject rename it alike. -/
theorem Subject.mapBlank_congr {f g : BlankNode → BlankNode} {sub : Subject}
    (h : ∀ node, sub = .blank node → f node = g node) : sub.mapBlank f = sub.mapBlank g := by
  cases sub with
  | iri node => rfl
  | blank node => exact congrArg Subject.blank (h node rfl)

/-- Renamings that agree on the blank node of a term rename it alike. -/
theorem Term.mapBlank_congr {f g : BlankNode → BlankNode} {x : Term}
    (h : ∀ node, x = .blank node → f node = g node) : x.mapBlank f = x.mapBlank g := by
  cases x with
  | iri node => rfl
  | blank node => exact congrArg Term.blank (h node rfl)
  | literal value => rfl

namespace Triple

/-- The triple with its blank nodes renamed. -/
def mapBlank (f : BlankNode → BlankNode) (t : Triple) : Triple :=
  ⟨t.subject.mapBlank f, t.predicate, t.object.mapBlank f⟩

/-- Whether a blank node is the subject or the object of a triple. -/
def Mentions (t : Triple) (node : BlankNode) : Prop :=
  t.subject = .blank node ∨ t.object = .blank node

/-- Renamings that agree on the blank nodes of a triple rename it alike. -/
theorem mapBlank_congr {f g : BlankNode → BlankNode} {t : Triple}
    (h : ∀ node, t.Mentions node → f node = g node) : t.mapBlank f = t.mapBlank g := by
  unfold mapBlank
  rw [Subject.mapBlank_congr fun node hsub => h node (Or.inl hsub),
    Term.mapBlank_congr fun node hobj => h node (Or.inr hobj)]

/-- Renaming twice is renaming once. -/
theorem mapBlank_mapBlank (t : Triple) (f g : BlankNode → BlankNode) :
    (t.mapBlank f).mapBlank g = t.mapBlank (g ∘ f) := by
  obtain ⟨s, p, o⟩ := t
  cases s <;> cases o <;> rfl

/-- A renamed triple mentions the new names of the blank nodes that the triple mentions. -/
theorem Mentions.mapBlank {t : Triple} {node : BlankNode} (h : t.Mentions node)
    (f : BlankNode → BlankNode) : (t.mapBlank f).Mentions (f node) := by
  rcases h with h | h
  · exact Or.inl (congrArg (Subject.mapBlank f) h)
  · exact Or.inr (congrArg (Term.mapBlank f) h)

end Triple

/-- A renaming gives different names to the different blank nodes that some triples mention. -/
def IsInjectiveOn (f : BlankNode → BlankNode) (ts : List Triple) : Prop :=
  ∀ a b, (∃ t ∈ ts, t.Mentions a) → (∃ t ∈ ts, t.Mentions b) → f a = f b → a = b

/-- What is injective on some triples is so on fewer. -/
theorem IsInjectiveOn.mono {f : BlankNode → BlankNode} {ts us : List Triple}
    (h : IsInjectiveOn f us) (hsub : ∀ t ∈ ts, t ∈ us) : IsInjectiveOn f ts := by
  rintro a b ⟨t, ht, ha⟩ ⟨u, hu, hb⟩
  exact h a b ⟨t, hsub t ht, ha⟩ ⟨u, hsub u hu, hb⟩

/-- Subjects with the same image are equal if their blank nodes are. -/
theorem Subject.eq_of_mapBlank_eq {f : BlankNode → BlankNode} {s s' : Subject}
    (hf : ∀ a b, s = .blank a → s' = .blank b → f a = f b → a = b)
    (h : s.mapBlank f = s'.mapBlank f) : s = s' := by
  cases s with
  | iri node =>
    cases s' with
    | iri node' => exact h
    | blank node' => cases h
  | blank node =>
    cases s' with
    | iri node' => cases h
    | blank node' => exact congrArg Subject.blank (hf node node' rfl rfl (Subject.blank.inj h))

/-- Terms with the same image are equal if their blank nodes are. -/
theorem Term.eq_of_mapBlank_eq {f : BlankNode → BlankNode} {x x' : Term}
    (hf : ∀ a b, x = .blank a → x' = .blank b → f a = f b → a = b)
    (h : x.mapBlank f = x'.mapBlank f) : x = x' := by
  cases x with
  | blank node =>
    cases x' with
    | blank node' => exact congrArg Term.blank (hf node node' rfl rfl (Term.blank.inj h))
    | iri node' => cases h
    | literal value' => cases h
  | iri node =>
    cases x' with
    | blank node' => cases h
    | iri node' => exact h
    | literal value' => cases h
  | literal value =>
    cases x' with
    | blank node' => cases h
    | iri node' => cases h
    | literal value' => exact h

/-- Different triples stay different when their blank nodes get different names. -/
theorem IsInjectiveOn.eq_of_mapBlank_eq {f : BlankNode → BlankNode} {ts : List Triple}
    (hf : IsInjectiveOn f ts) {t u : Triple} (ht : t ∈ ts) (hu : u ∈ ts)
    (h : t.mapBlank f = u.mapBlank f) : t = u := by
  have hsubject : t.subject = u.subject :=
    Subject.eq_of_mapBlank_eq
      (fun a b ha hb => hf a b ⟨t, ht, Or.inl ha⟩ ⟨u, hu, Or.inl hb⟩) (congrArg Triple.subject h)
  have hpredicate : (t.mapBlank f).predicate = (u.mapBlank f).predicate :=
    congrArg Triple.predicate h
  have hobject : t.object = u.object :=
    Term.eq_of_mapBlank_eq
      (fun a b ha hb => hf a b ⟨t, ht, Or.inr ha⟩ ⟨u, hu, Or.inr hb⟩) (congrArg Triple.object h)
  obtain ⟨s, p, o⟩ := t
  obtain ⟨s', p', o'⟩ := u
  cases hsubject
  cases hpredicate
  cases hobject
  rfl

/-- A renaming after another gives different names if both do. -/
theorem IsInjectiveOn.comp {f g : BlankNode → BlankNode} {ts : List Triple}
    (hf : IsInjectiveOn f ts) (hg : IsInjectiveOn g (ts.map (Triple.mapBlank f))) :
    IsInjectiveOn (g ∘ f) ts := by
  rintro a b ⟨t, ht, ha⟩ ⟨u, hu, hb⟩ h
  refine hf a b ⟨t, ht, ha⟩ ⟨u, hu, hb⟩ (hg (f a) (f b) ?_ ?_ h)
  · exact ⟨t.mapBlank f, List.mem_map_of_mem ht, ha.mapBlank f⟩
  · exact ⟨u.mapBlank f, List.mem_map_of_mem hu, hb.mapBlank f⟩

end RdfStore
