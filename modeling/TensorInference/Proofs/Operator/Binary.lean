import TensorInference.Proofs.Refinement.Operator
import TensorInference.Proofs.Shape.Merge
import TensorInference.Proofs.Shape.Unification

/-!
# The two rules of an elementwise operator

An elementwise operator on two values unifies its shapes by merging them or by broadcasting them.
Both rules are symmetric in the inputs and name them when they fail.  Broadcasting accepts whatever
merging accepts: a merged shape is finer than both inputs and broadcasts with itself to itself, and
since broadcasting is monotone, the inputs broadcast as well, to a coarser shape.  It may be coarser,
for merging learns an extent of one from one side where broadcasting learns nothing.

* `PartialShape.exists_broadcast_of_merge` --- what merges, broadcasts.
* `ElementType.merge_swap`, `ShapeRule.unify_swap` --- operands in the other order.
* `Operator.inferPair_eq_error_iff` --- which error it is.
* `Operator.binary_laws` --- all of it together.
-/

namespace TensorInference

/-! ## Element types -/

namespace ElementType

variable {a b : ElementType}

/-- The operands in the other order. -/
def Conflict.swap (c : Conflict) : Conflict :=
  ⟨c.right, c.left⟩

theorem compatible_iff : a.compatible b = true ↔ a = dynamic ∨ b = dynamic ∨ a = b := by
  simp only [compatible, Bool.or_eq_true, beq_iff_eq]
  rw [or_assoc, or_comm, or_assoc]

/-- Types that are not compatible do not unify, and are named. -/
theorem merge_eq_error_iff {c : Conflict} :
    a.merge b = .error c ↔ a.compatible b = false ∧ c = ⟨a, b⟩ := by
  rw [← Bool.not_eq_true, compatible_iff, not_or, merge]
  by_cases ha : a = dynamic
  · rw [if_pos ha]
    simp only [reduceCtorEq, false_iff]
    exact fun h => h.1.1 ha
  · by_cases hb : b = dynamic ∨ a = b
    · rw [if_neg ha, if_pos hb]
      simp only [reduceCtorEq, false_iff]
      exact fun h => h.1.2 hb
    · rw [if_neg ha, if_neg hb, Except.error.injEq]
      constructor
      · rintro rfl
        exact ⟨⟨ha, hb⟩, rfl⟩
      · rintro ⟨-, rfl⟩
        rfl

theorem compatible_iff_exists_merge : a.compatible b = true ↔ ∃ t, a.merge b = .ok t := by
  cases h : a.merge b with
  | error c => simp [(merge_eq_error_iff.1 h).1]
  | ok t =>
    refine iff_of_true ?_ ⟨t, rfl⟩
    by_contra hcompatible
    rw [merge_eq_error_iff.2 ⟨Bool.eq_false_iff.2 hcompatible, rfl⟩] at h
    cases h

theorem merge_eq_ok_comm {t : ElementType} : a.merge b = .ok t ↔ b.merge a = .ok t := by
  by_cases ha : a = dynamic
  · rw [ha, merge_dynamic_left, merge_dynamic_right]
  · by_cases hb : b = dynamic
    · rw [hb, merge_dynamic_left, merge_dynamic_right]
    · by_cases hab : a = b
      · rw [hab]
      · simp [merge, ha, hb, hab, Ne.symm hab]

theorem merge_swap (a b : ElementType) : b.merge a = (a.merge b).mapError Conflict.swap := by
  refine Outcome.eq_mapError (fun t => merge_eq_ok_comm) fun c c' hc hc' => ?_
  rw [(merge_eq_error_iff.1 hc).2, (merge_eq_error_iff.1 hc').2, Conflict.swap]

end ElementType

/-! ## Shapes -/

namespace PartialShape

/-- The operands in the other order. -/
def Conflict.swap (c : Conflict) : Conflict :=
  ⟨c.right, c.left⟩

theorem broadcast_self (p : PartialShape) : p.broadcast p = .ok p := by
  cases p with
  | unranked => rfl
  | ranked dims =>
    exact findsJoins_broadcast.op_eq_ok_of_below rfl rfl (findsJoins_broadcast.refl rfl)

/-- What merges, broadcasts, to a shape that is coarser. -/
theorem exists_broadcast_of_merge {a b m : PartialShape} (h : a.merge b = .ok m) :
    ∃ r, a.broadcast b = .ok r ∧ m.Refines r := by
  obtain ⟨hleft, hright⟩ := refines_of_merge h
  exact exists_broadcast_of_refines hleft hright (broadcast_self m)

theorem broadcast_eq_ok_comm {a b r : PartialShape} :
    a.broadcast b = .ok r ↔ b.broadcast a = .ok r := by
  by_cases hrank : a.rank? = none ∨ b.rank? = none
  · rw [broadcast_of_rank?_eq_none hrank, broadcast_of_rank?_eq_none hrank.symm]
  · rw [not_or, ← ne_eq, ← ne_eq, Option.ne_none_iff_isSome, Option.ne_none_iff_isSome] at hrank
    exact findsJoins_broadcast.commutative hrank.1 hrank.2 r

end PartialShape

namespace ShapeRule

open PartialShape

variable {rule : ShapeRule} {a b : PartialShape}

theorem unify_eq_ok_comm {s : PartialShape} : rule.unify a b = .ok s ↔ rule.unify b a = .ok s := by
  cases rule with
  | merge => exact findsJoins_merge.commutative trivial trivial s
  | broadcast => exact broadcast_eq_ok_comm

/-- Shapes that do not unify are named. -/
theorem eq_of_unify_eq_error {c : Conflict} (h : rule.unify a b = .error c) : c = ⟨a, b⟩ := by
  cases rule with
  | merge =>
    obtain ⟨as, bs, -, -, -, hc⟩ := merge_eq_error_iff.1 h
    exact hc
  | broadcast =>
    obtain ⟨as, bs, -, -, -, hc⟩ := broadcast_eq_error_iff.1 h
    exact hc

theorem unify_swap (rule : ShapeRule) (a b : PartialShape) :
    rule.unify b a = (rule.unify a b).mapError Conflict.swap := by
  refine Outcome.eq_mapError (fun s => unify_eq_ok_comm) fun c c' hc hc' => ?_
  rw [eq_of_unify_eq_error hc, eq_of_unify_eq_error hc', Conflict.swap]

end ShapeRule

/-! ## Inference -/

/-- The same error, its operands in the other order, if it has any. -/
def InferError.swap : InferError → InferError
  | typeConflict c => typeConflict c.swap
  | shapeConflict c => shapeConflict c.swap
  | e => e

namespace Operator

variable {rule : ShapeRule} {a b : TensorInfo}

theorem inferPair_swap (rule : ShapeRule) (a b : TensorInfo) :
    inferPair rule b a = (inferPair rule a b).mapError InferError.swap := by
  rw [inferPair, inferPair, ElementType.merge_swap, ShapeRule.unify_swap]
  cases a.elementType.merge b.elementType with
  | error c => rfl
  | ok t =>
    cases rule.unify a.shape b.shape with
    | error c => rfl
    | ok s => rfl

/-- Shapes are looked at when the types are compatible, and not before. -/
theorem inferPair_eq_error_iff {e : InferError} :
    inferPair rule a b = .error e ↔
      a.elementType.compatible b.elementType = false ∧
          e = .typeConflict ⟨a.elementType, b.elementType⟩ ∨
        a.elementType.compatible b.elementType = true ∧
          (∃ c, rule.unify a.shape b.shape = .error c) ∧
          e = .shapeConflict ⟨a.shape, b.shape⟩ := by
  simp only [inferPair, Outcome.bind_eq_error_iff, Outcome.mapError_eq_error_iff,
    Outcome.mapError_eq_ok_iff, ElementType.merge_eq_error_iff,
    ElementType.compatible_iff_exists_merge]
  constructor
  · rintro (⟨c, ⟨hcompatible, rfl⟩, rfl⟩ | ⟨t, ht, ⟨c, hc, rfl⟩ | ⟨s, -, h⟩⟩)
    · exact .inl ⟨hcompatible, rfl⟩
    · exact .inr ⟨⟨t, ht⟩, ⟨c, hc⟩, by rw [ShapeRule.eq_of_unify_eq_error hc]⟩
    · cases h
  · rintro (⟨hcompatible, rfl⟩ | ⟨⟨t, ht⟩, ⟨c, hc⟩, rfl⟩)
    · exact .inl ⟨_, ⟨hcompatible, rfl⟩, rfl⟩
    · obtain rfl := ShapeRule.eq_of_unify_eq_error hc
      exact .inr ⟨t, ht, .inl ⟨_, hc, rfl⟩⟩

/-- **Broadcasting takes what merging takes, and the order of the inputs makes no difference.**  If a
binary operator that merges has an output, the one that broadcasts has an output of the same type,
whose shape describes all that the merged shape describes.  Under both rules the inputs in the other
order have the same output, or the same error with its operands swapped.  That is an error about the
element types whenever these are not compatible, whatever the shapes are, and otherwise one about the
shapes. -/
theorem binary_laws (name : String) (a b : TensorInfo) :
    (∀ m, infer (.binary name .merge) [a, b] = .ok m →
      ∃ r, infer (.binary name .broadcast) [a, b] = .ok r ∧ r.elementType = m.elementType ∧
        ∀ s, m.shape.Describes s → r.shape.Describes s) ∧
    (∀ rule, infer (.binary name rule) [b, a] =
      (infer (.binary name rule) [a, b]).mapError InferError.swap) ∧
    ∀ rule e, infer (.binary name rule) [a, b] = .error e ↔
      a.elementType.compatible b.elementType = false ∧
          e = .typeConflict ⟨a.elementType, b.elementType⟩ ∨
        a.elementType.compatible b.elementType = true ∧
          (∃ c, rule.unify a.shape b.shape = .error c) ∧
          e = .shapeConflict ⟨a.shape, b.shape⟩ := by
  refine ⟨fun m hm => ?_, fun rule => inferPair_swap rule a b, fun rule e => inferPair_eq_error_iff⟩
  obtain ⟨htype, hshape⟩ := inferPair_eq_ok_iff.1 hm
  obtain ⟨r, hr, hrefines⟩ := PartialShape.exists_broadcast_of_merge hshape
  exact ⟨⟨m.elementType, r⟩, inferPair_eq_ok_iff.2 ⟨htype, hr⟩, rfl, fun s hs => hrefines.describes hs⟩

/-- Merging learns the extent of one from the second input, broadcasting does not. -/
example (name : String) :
    infer (.binary name .merge) [⟨.i32, .ranked [.unknown]⟩, ⟨.dynamic, .ranked [.known 1]⟩] =
        .ok ⟨.i32, .ranked [.known 1]⟩ ∧
      infer (.binary name .broadcast) [⟨.i32, .ranked [.unknown]⟩, ⟨.dynamic, .ranked [.known 1]⟩] =
        .ok ⟨.i32, .ranked [.unknown]⟩ :=
  ⟨rfl, rfl⟩

end Operator

end TensorInference
