/-!
# Unifying many

Element types, dimensions and partial shapes are unified two at a time.  `unifyAll` unifies a list
of them from the left and fails as soon as one does not fit; `unifyEach` passes over those that do
not fit and keeps the outcome of every step.
-/

namespace TensorInference

variable {α ε : Type}

/-- Unifies all items with `held`, from the left. -/
def unifyAll (unify : α → α → Except ε α) (held : α) (items : List α) : Except ε α :=
  items.foldlM unify held

/-- Unifies items with `held` one by one.  An item that does not fit leaves `held` as it was.  The
result is what is held in the end, and the outcome of every step. -/
def unifyEach (unify : α → α → Except ε α) (held : α) : List α → α × List (Except ε α)
  | [] => (held, [])
  | item :: items =>
    let outcome := unify held item
    let (last, outcomes) := unifyEach unify (outcome.toOption.getD held) items
    (last, outcome :: outcomes)

@[simp] theorem unifyAll_nil (unify : α → α → Except ε α) (held : α) :
    unifyAll unify held [] = .ok held := rfl

/-- There is one outcome for every item. -/
theorem length_unifyEach (unify : α → α → Except ε α) (held : α) (items : List α) :
    (unifyEach unify held items).2.length = items.length := by
  induction items generalizing held with
  | nil => rfl
  | cons item items ih => simp [unifyEach, ih]

end TensorInference
