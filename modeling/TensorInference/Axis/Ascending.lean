/-!
# Strictly ascending lists

A finite set of numbers has exactly one strictly ascending list.  `ofList` finds it by ordered
insertion, and `pairwise_ofList` and `mem_ofList` say that the result is ascending and has the
members of the argument.

`has` searches an ascending list and stops at the first entry that is not smaller than the wanted
one, so it depends on the order: `has_iff_mem` holds for ascending lists only.
-/

namespace TensorInference.Ascending

variable {α : Type} [LT α] [DecidableLT α]

/-- Puts an entry at its place, unless it is there already. -/
def insert (a : α) : List α → List α
  | [] => [a]
  | b :: bs =>
    if a < b then a :: b :: bs
    else if b < a then b :: insert a bs
    else b :: bs

/-- The ascending list of the entries of a list, repetitions dropped. -/
def ofList (entries : List α) : List α :=
  entries.foldr insert []

/-- Searches an ascending list, up to the first entry that is not smaller than `a`. -/
def has (a : α) : List α → Bool
  | [] => false
  | b :: bs => if b < a then has a bs else !(a < b)

section Laws

variable [Std.Trichotomous fun a b : α => a < b]

@[simp] theorem mem_insert {a x : α} {l : List α} : x ∈ insert a l ↔ x = a ∨ x ∈ l := by
  induction l with
  | nil => simp [insert]
  | cons b bs ih =>
    unfold insert
    split
    · simp
    · split
      · simp only [List.mem_cons, ih]
        exact or_left_comm
      · next hab hba =>
        have := Std.Trichotomous.trichotomous (r := fun a b : α => a < b) a b hab hba
        subst this
        simp

@[simp] theorem mem_ofList {x : α} {l : List α} : x ∈ ofList l ↔ x ∈ l := by
  induction l with
  | nil => simp [ofList]
  | cons a l ih =>
    rw [show ofList (a :: l) = insert a (ofList l) from rfl, mem_insert, ih, List.mem_cons]

variable [Trans (fun a b : α => a < b) (fun a b : α => a < b) (fun a b : α => a < b)]

theorem pairwise_insert {a : α} {l : List α} (h : l.Pairwise (· < ·)) :
    (insert a l).Pairwise (· < ·) := by
  induction l with
  | nil => simp [insert]
  | cons b bs ih =>
    have hbs := (List.pairwise_cons.1 h).2
    have hb := (List.pairwise_cons.1 h).1
    unfold insert
    split
    · next hab =>
      refine List.pairwise_cons.2 ⟨fun x hx => ?_, h⟩
      rcases List.mem_cons.1 hx with rfl | hx
      · exact hab
      · exact Trans.trans hab (hb x hx)
    · split
      · next hba =>
        refine List.pairwise_cons.2 ⟨fun x hx => ?_, ih hbs⟩
        rcases mem_insert.1 hx with rfl | hx
        · exact hba
        · exact hb x hx
      · exact h

theorem pairwise_ofList (l : List α) : (ofList l).Pairwise (· < ·) := by
  induction l with
  | nil => exact List.Pairwise.nil
  | cons a l ih => exact pairwise_insert ih

/-- The search finds the members of an ascending list. -/
theorem has_iff_mem [Std.Irrefl fun a b : α => a < b] {a : α} {l : List α}
    (h : l.Pairwise (· < ·)) : has a l = true ↔ a ∈ l := by
  induction l with
  | nil => simp [has]
  | cons b bs ih =>
    have hb := (List.pairwise_cons.1 h).1
    have irrefl (x : α) : ¬x < x := Std.Irrefl.irrefl (r := fun a b : α => a < b) x
    unfold has
    split
    · next hba =>
      rw [ih (List.pairwise_cons.1 h).2, List.mem_cons]
      refine ⟨Or.inr, fun hmem => hmem.resolve_left fun heq => ?_⟩
      exact irrefl b (heq ▸ hba)
    · next hba =>
      simp only [Bool.not_eq_true', decide_eq_false_iff_not, List.mem_cons]
      constructor
      · intro hab
        exact Or.inl (Std.Trichotomous.trichotomous (r := fun a b : α => a < b) a b hab hba)
      · rintro (rfl | hmem)
        · exact irrefl a
        · intro hab
          exact irrefl a (Trans.trans hab (hb a hmem))

end Laws

end TensorInference.Ascending
