import Mathlib.Data.List.Forall2

/-!
# Outcomes

Computations here end with a value or with an error, as an `Except`.  These lemmas take such a
computation apart: what it takes for a step, a sequence of steps, a traversal or a fold to end with
a value, and which error a traversal ends with when all its errors are the same.  `FailsOnly` says of
what sort the errors of a computation are; a sequence fails only as its steps do.
-/

namespace TensorInference.Outcome

variable {ε ε' α β : Type}

theorem toOption_eq_some_iff {x : Except ε α} {a : α} : x.toOption = some a ↔ x = .ok a := by
  cases x <;> simp [Except.toOption]

theorem toOption_eq_none_iff {x : Except ε α} : x.toOption = none ↔ ∃ e, x = .error e := by
  cases x <;> simp [Except.toOption]

theorem mapError_eq_ok_iff {f : ε → ε'} {x : Except ε α} {a : α} :
    x.mapError f = .ok a ↔ x = .ok a := by
  cases x with
  | error e =>
    constructor
    · intro h
      cases h
    · intro h
      cases h
  | ok b =>
    constructor
    · intro h
      cases h
      rfl
    · intro h
      cases h
      rfl

theorem mapError_eq_error_iff {f : ε → ε'} {x : Except ε α} {e' : ε'} :
    x.mapError f = .error e' ↔ ∃ e, x = .error e ∧ f e = e' := by
  cases x with
  | error e => simp [Except.mapError]
  | ok a => simp [Except.mapError]

theorem mapError_injective {f : ε → ε'} (hf : f.Injective) :
    (Except.mapError f : Except ε α → Except ε' α).Injective := by
  intro x y h
  cases x with
  | error e =>
    obtain ⟨e', hy, he⟩ := mapError_eq_error_iff.1 h.symm
    rw [hy, hf he]
  | ok a => exact (mapError_eq_ok_iff.1 h.symm).symm

/-- Computations with the same values differ in their errors only. -/
theorem eq_mapError {f : ε → ε'} {x : Except ε α} {y : Except ε' α}
    (hok : ∀ a, y = .ok a ↔ x = .ok a) (herror : ∀ e e', x = .error e → y = .error e' → e' = f e) :
    y = x.mapError f := by
  cases x with
  | ok a => exact (hok a).2 rfl
  | error e =>
    cases y with
    | ok a => cases (hok a).1 rfl
    | error e' => exact congrArg Except.error (herror e e' rfl rfl)

theorem bind_eq_ok_iff {x : Except ε α} {f : α → Except ε β} {b : β} :
    (x >>= f) = .ok b ↔ ∃ a, x = .ok a ∧ f a = .ok b := by
  cases x with
  | error e =>
    constructor
    · intro h
      cases h
    · rintro ⟨a, h, -⟩
      cases h
  | ok a =>
    constructor
    · intro h
      exact ⟨a, rfl, h⟩
    · rintro ⟨a', h, h'⟩
      cases h
      exact h'

theorem bind_eq_error_iff {x : Except ε α} {f : α → Except ε β} {e : ε} :
    (x >>= f) = .error e ↔ x = .error e ∨ ∃ a, x = .ok a ∧ f a = .error e := by
  cases x with
  | error e' =>
    constructor
    · intro h
      cases h
      exact .inl rfl
    · rintro (h | ⟨a, h, -⟩)
      · cases h
        rfl
      · cases h
  | ok a =>
    constructor
    · intro h
      exact .inr ⟨a, rfl, h⟩
    · rintro (h | ⟨a', h, h'⟩)
      · cases h
      · cases h
        exact h'

theorem map_eq_ok_iff {x : Except ε α} {f : α → β} {b : β} :
    x.map f = .ok b ↔ ∃ a, x = .ok a ∧ f a = b := by
  cases x <;> simp [Except.map]

theorem map_eq_error_iff {x : Except ε α} {f : α → β} {e : ε} :
    x.map f = .error e ↔ x = .error e := by
  cases x <;> simp [Except.map]

theorem map_injective {f : α → β} (hf : f.Injective) :
    (Except.map f : Except ε α → Except ε β).Injective := by
  intro x y h
  cases x with
  | error e => exact (map_eq_error_iff.1 h.symm).symm
  | ok a =>
    obtain ⟨a', hy, ha⟩ := map_eq_ok_iff.1 h.symm
    rw [hy, hf ha]

/-! ## Lists -/

theorem foldlM_eq_ok {step : β → α → Except ε β} {combine : β → α → β} {l : List α} {b : β}
    (h : ∀ a ∈ l, ∀ b, step b a = .ok (combine b a)) :
    l.foldlM step b = .ok (l.foldl combine b) := by
  induction l generalizing b with
  | nil => rfl
  | cons a l ih =>
    rw [List.foldlM_cons, h a List.mem_cons_self b]
    exact ih fun a ha => h a (List.mem_cons_of_mem _ ha)

theorem mapM_eq_ok {f : α → Except ε β} {g : α → β} {l : List α} (h : ∀ a ∈ l, f a = .ok (g a)) :
    l.mapM f = .ok (l.map g) := by
  induction l with
  | nil => rfl
  | cons a l ih =>
    rw [List.mapM_cons, h a List.mem_cons_self, ih fun a ha => h a (List.mem_cons_of_mem _ ha)]
    rfl

/-- A traversal ends with what is found one by one. -/
theorem mapM_eq_ok_iff_forall₂ {f : α → Except ε β} {l : List α} {bs : List β} :
    l.mapM f = .ok bs ↔ List.Forall₂ (fun a b => f a = .ok b) l bs := by
  induction l generalizing bs with
  | nil =>
    constructor
    · intro h
      cases h
      exact .nil
    · intro h
      cases h
      rfl
  | cons a l ih =>
    rw [List.mapM_cons, bind_eq_ok_iff]
    constructor
    · rintro ⟨b, hb, hrest⟩
      obtain ⟨more, hmore, hrest⟩ := bind_eq_ok_iff.1 hrest
      cases hrest
      exact .cons hb (ih.1 hmore)
    · intro h
      cases h with
      | cons hb hrest => exact ⟨_, hb, bind_eq_ok_iff.2 ⟨_, ih.2 hrest, rfl⟩⟩

/-- A traversal that finds something everywhere ends with all that it finds. -/
theorem mapM_eq_ok_filterMap {f : α → Except ε β} {find : α → Option β} {l : List α}
    (h : ∀ a ∈ l, ∃ b, find a = some b ∧ f a = .ok b) : l.mapM f = .ok (l.filterMap find) := by
  induction l with
  | nil => rfl
  | cons a l ih =>
    obtain ⟨b, hfind, ha⟩ := h a List.mem_cons_self
    rw [List.mapM_cons, ha, ih fun a ha => h a (List.mem_cons_of_mem _ ha),
      List.filterMap_cons_some hfind]
    rfl

/-- Where every failure is the same, one failure decides. -/
theorem mapM_eq_error {f : α → Except ε β} {l : List α} {e : ε}
    (h : ∀ a ∈ l, f a = .error e ∨ ∃ b, f a = .ok b) (hfail : ∃ a ∈ l, f a = .error e) :
    l.mapM f = .error e := by
  induction l with
  | nil => simp at hfail
  | cons a l ih =>
    rw [List.mapM_cons]
    rcases h a List.mem_cons_self with ha | ⟨b, hb⟩
    · rw [ha]
      rfl
    · rw [hb]
      obtain ⟨a', ha', hfail⟩ := hfail
      have hrest : ∃ a ∈ l, f a = .error e := by
        rcases List.mem_cons.1 ha' with rfl | ha'
        · rw [hb] at hfail
          cases hfail
        · exact ⟨a', ha', hfail⟩
      rw [ih (fun a ha => h a (List.mem_cons_of_mem _ ha)) hrest]
      rfl

/-! ## Sorts of errors -/

/-- All errors that a computation can end with are of one sort. -/
def FailsOnly (sort : ε → Prop) (x : Except ε α) : Prop :=
  ∀ e, x = .error e → sort e

namespace FailsOnly

variable {sort : ε → Prop} {x : Except ε α}

theorem ok {a : α} : FailsOnly sort (.ok a : Except ε α) :=
  fun _ h => nomatch h

theorem error {e : ε} (he : sort e) : FailsOnly sort (.error e : Except ε α) := by
  intro e' h
  obtain rfl := Except.error.inj h
  exact he

theorem map {f : α → β} (h : FailsOnly sort x) : FailsOnly sort (x.map f) := by
  cases x with
  | error e => exact error (h e rfl)
  | ok a => exact ok

theorem bind {f : α → Except ε β} (h : FailsOnly sort x) (hf : ∀ a, FailsOnly sort (f a)) :
    FailsOnly sort (x >>= f) := by
  cases x with
  | error e => exact error (h e rfl)
  | ok a => exact hf a

end FailsOnly

end TensorInference.Outcome
