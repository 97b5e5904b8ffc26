import Mathlib.Data.List.Forall2
import Mathlib.Tactic.Common

/-!
# Results

A sequence gives a result when each of its steps does.  The lemmas take such results apart and put
them together, for single steps and for loops.
-/

namespace ConfigPack.Result

variable {α β ε δ : Type}

/-- Results with other errors succeed when the results do. -/
@[simp] lemma mapError_eq_ok {f : δ → ε} {result : Except δ α} {a : α} :
    result.mapError f = .ok a ↔ result = .ok a := by
  cases result <;> simp [Except.mapError]

/-- They fail with the images of the errors. -/
@[simp] lemma mapError_eq_error {f : δ → ε} {result : Except δ α} {e : ε} :
    result.mapError f = .error e ↔ ∃ d, result = .error d ∧ f d = e := by
  cases result <;> simp [Except.mapError]

/-- The value of a result is there when it succeeds. -/
lemma toOption_eq_some {result : Except ε α} {a : α} :
    result.toOption = some a ↔ result = .ok a := by
  cases result <;> simp [Except.toOption]

/-- A changed result succeeds with the images of the values. -/
lemma map_eq_ok {f : α → β} {result : Except ε α} {b : β} :
    result.map f = .ok b ↔ ∃ a, result = .ok a ∧ f a = b := by
  cases result <;> simp [Except.map]

/-- A sequence gives what its second step gives. -/
lemma bind_eq_ok {first : Except ε α} {next : α → Except ε β} {b : β} :
    first >>= next = .ok b ↔ ∃ a, first = .ok a ∧ next a = .ok b := by
  cases first with
  | error e =>
    constructor
    · intro h
      cases h
    · rintro ⟨_, h, _⟩
      cases h
  | ok a =>
    constructor
    · intro h
      exact ⟨a, rfl, h⟩
    · rintro ⟨_, h, h'⟩
      cases h
      exact h'

/-- A sequence fails at its first step or behind it. -/
lemma bind_eq_error {first : Except ε α} {next : α → Except ε β} {e : ε} :
    first >>= next = .error e ↔ first = .error e ∨ ∃ a, first = .ok a ∧ next a = .error e := by
  cases first with
  | error e' =>
    constructor
    · intro h
      cases h
      exact .inl rfl
    · rintro (h | ⟨_, h, _⟩)
      · cases h
        rfl
      · cases h
  | ok a =>
    constructor
    · intro h
      exact .inr ⟨a, rfl, h⟩
    · rintro (h | ⟨_, h, h'⟩)
      · cases h
      · cases h
        exact h'

/-- A loop gives the results of its steps. -/
lemma mapM_eq_ok {f : α → Except ε β} :
    ∀ {items : List α} {results : List β},
      items.mapM f = .ok results ↔ List.Forall₂ (fun a b => f a = .ok b) items results
  | [], results => by
    constructor
    · intro h
      cases h
      exact .nil
    · intro h
      cases h
      rfl
  | a :: items, results => by
    rw [List.mapM_cons]
    constructor
    · intro h
      obtain ⟨b, hb, h⟩ := bind_eq_ok.1 h
      obtain ⟨bs, hbs, h⟩ := bind_eq_ok.1 h
      cases h
      exact .cons hb (mapM_eq_ok.1 hbs)
    · intro h
      cases h with
      | cons hb hbs =>
        exact bind_eq_ok.2 ⟨_, hb, bind_eq_ok.2 ⟨_, mapM_eq_ok.2 hbs, rfl⟩⟩

/-- What a loop gives is given by one of its steps. -/
lemma mem_of_mapM {f : α → Except ε β} {items : List α} {results : List β}
    (h : items.mapM f = .ok results) {b : β} (hb : b ∈ results) : ∃ a ∈ items, f a = .ok b := by
  have hall := mapM_eq_ok.1 h
  induction hall with
  | nil => cases hb
  | cons hfirst hrest ih =>
    rcases List.mem_cons.1 hb with rfl | hb
    · exact ⟨_, List.mem_cons_self, hfirst⟩
    · obtain ⟨a, ha, hstep⟩ := ih (mapM_eq_ok.2 hrest) hb
      exact ⟨a, List.mem_cons_of_mem _ ha, hstep⟩

/-- A loop succeeds when each of its steps does. -/
lemma exists_mapM {f : α → Except ε β} {P : α → β → Prop} :
    ∀ {items : List α}, (∀ a ∈ items, ∃ b, f a = .ok b ∧ P a b) →
      ∃ results, items.mapM f = .ok results ∧ List.Forall₂ P items results
  | [], _ => ⟨[], rfl, .nil⟩
  | a :: items, h => by
    obtain ⟨b, hb, hP⟩ := h a List.mem_cons_self
    obtain ⟨bs, hbs, hall⟩ := exists_mapM fun x hx => h x (List.mem_cons_of_mem _ hx)
    refine ⟨b :: bs, ?_, .cons hP hall⟩
    rw [List.mapM_cons, hb, hbs]
    rfl

/-- A fold fails with what one of its steps fails with. -/
lemma exists_of_foldlM_error {f : β → α → Except ε β} {e : ε} :
    ∀ {items : List α} {b : β}, items.foldlM f b = .error e → ∃ a ∈ items, ∃ b', f b' a = .error e
  | [], b, h => by cases h
  | a :: items, b, h => by
    rw [List.foldlM_cons] at h
    cases hstep : f b a with
    | error e' =>
      rw [hstep] at h
      cases h
      exact ⟨a, List.mem_cons_self, b, hstep⟩
    | ok b' =>
      rw [hstep] at h
      obtain ⟨x, hx, hfails⟩ := exists_of_foldlM_error h
      exact ⟨x, List.mem_cons_of_mem _ hx, hfails⟩

end ConfigPack.Result
