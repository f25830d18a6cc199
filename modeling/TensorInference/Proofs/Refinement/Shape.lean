import TensorInference.Proofs.Outcome
import TensorInference.Proofs.Shape.Broadcast
import TensorInference.Shape.Reduced

/-!
# Finer shapes

To refine is to say more without contradiction.  Everything that combines shapes is monotone for
refinement: where finer operands have a result, so have coarser ones, and theirs is coarser.  The
reason lies in a single pair of dimensions, for `merge` and for `broadcast?` alike (`Monotone`), and
`exists_zip?_of_refinesAll` carries it along lists.

* `exists_merge_of_refines`, `exists_broadcast_of_refines` --- the two ways to unify.
* `reduce_refines` --- what a reduction leaves.
-/

namespace TensorInference

namespace Dimension

/-! ## One dimension -/

@[simp] theorem refines_unknown (d : Dimension) : d.Refines unknown := Or.inl rfl

@[simp] theorem Refines.refl (d : Dimension) : d.Refines d := Or.inr rfl

theorem refines_known_iff {d : Dimension} {size : Nat} :
    d.Refines (known size) ↔ d = known size := by
  simp [Refines]

theorem Refines.describes {a b : Dimension} (h : a.Refines b) {n : Nat} (ha : a.Describes n) :
    b.Describes n := by
  rcases h with rfl | rfl
  · exact describes_unknown n
  · exact ha

theorem Refines.trans {a b c : Dimension} (hab : a.Refines b) (hbc : b.Refines c) :
    a.Refines c := by
  rcases hbc with rfl | rfl
  · exact refines_unknown a
  · exact hab

/-- A partial operation on dimensions that has coarser results for coarser operands. -/
def Monotone (combine : Dimension → Dimension → Option Dimension) : Prop :=
  ∀ {fine fine' coarse coarse' d}, fine.Refines coarse → fine'.Refines coarse' →
    combine fine fine' = some d → ∃ d', combine coarse coarse' = some d' ∧ d.Refines d'

@[simp] theorem merge_unknown_left (d : Dimension) : unknown.merge d = .ok d := rfl

@[simp] theorem merge_unknown_right (d : Dimension) : d.merge unknown = .ok d := by
  cases d <;> rfl

theorem merge_known_eq_ok_iff {p q : Nat} {d : Dimension} :
    (known p).merge (known q) = .ok d ↔ p = q ∧ d = known p := by
  change (if p = q then Except.ok (known p) else .error (⟨p, q⟩ : Conflict)) = .ok d ↔ _
  by_cases hpq : p = q
  · simp [hpq, eq_comm]
  · simp [hpq]

/-- What two dimensions merge to refines both. -/
theorem refines_of_merge {a b d : Dimension} (h : a.merge b = .ok d) :
    d.Refines a ∧ d.Refines b := by
  cases a with
  | unknown =>
    rw [merge_unknown_left, Except.ok.injEq] at h
    exact ⟨refines_unknown d, Or.inr h.symm⟩
  | known p =>
    cases b with
    | unknown =>
      rw [merge_unknown_right, Except.ok.injEq] at h
      exact ⟨Or.inr h.symm, refines_unknown d⟩
    | known q =>
      obtain ⟨rfl, rfl⟩ := merge_known_eq_ok_iff.1 h
      exact ⟨Refines.refl _, Refines.refl _⟩

theorem monotone_merge : Monotone fun a b => (a.merge b).toOption := by
  intro fine fine' coarse coarse' d h h' hd
  simp only [Outcome.toOption_eq_some_iff] at hd ⊢
  obtain ⟨hleft, hright⟩ := refines_of_merge hd
  rcases h with rfl | rfl
  · exact ⟨coarse', merge_unknown_left coarse', hright.trans h'⟩
  · rcases h' with rfl | rfl
    · exact ⟨fine, merge_unknown_right fine, hleft⟩
    · exact ⟨d, hd, Refines.refl d⟩

/-- Known sizes of one side come through, unless they are one. -/
theorem refines_of_broadcast?_left {a b d : Dimension} (h : a.broadcast? b = some d)
    (ha : a ≠ known 1) : d.Refines a := by
  cases a with
  | unknown => exact refines_unknown d
  | known p =>
    cases b with
    | unknown =>
      rw [broadcast?_unknown_right, if_neg ha, Option.some_inj] at h
      exact Or.inr h.symm
    | known q =>
      rw [broadcast?_known, Option.map_eq_some_iff] at h
      obtain ⟨m, hm, rfl⟩ := h
      have hp : p ≠ 1 := fun hp => ha (hp ▸ rfl)
      rw [refines_known_iff, known.injEq]
      have := (Shape.stretch?_eq_some_iff.1 hm).1
      omega

theorem broadcast?_comm (a b : Dimension) : a.broadcast? b = b.broadcast? a := by
  cases a with
  | unknown => rw [broadcast?_unknown_left, broadcast?_unknown_right]
  | known p =>
    cases b with
    | unknown => rw [broadcast?_unknown_left, broadcast?_unknown_right]
    | known q => rw [broadcast?_known, broadcast?_known, Shape.stretch?_comm]

/-- An unknown extent leaves of the other side what is surely kept of it. -/
theorem exists_broadcast?_unknown {a b c d : Dimension} (h : a.broadcast? b = some d)
    (hb : b.Refines c) : ∃ d', unknown.broadcast? c = some d' ∧ d.Refines d' := by
  refine ⟨_, broadcast?_unknown_left c, ?_⟩
  split
  · exact refines_unknown d
  · next hc =>
    rcases hb with rfl | rfl
    · exact refines_unknown d
    · rw [broadcast?_comm] at h
      exact refines_of_broadcast?_left h hc

theorem monotone_broadcast? : Monotone broadcast? := by
  intro fine fine' coarse coarse' d h h' hd
  rcases h with rfl | rfl
  · exact exists_broadcast?_unknown hd h'
  · rcases h' with rfl | rfl
    · rw [broadcast?_comm] at hd ⊢
      exact exists_broadcast?_unknown hd (Refines.refl fine)
    · exact ⟨d, hd, Refines.refl d⟩

/-! ## Lists of dimensions -/

theorem refinesAll_cons_left {fine : Dimension} {fines coarses : List Dimension} :
    RefinesAll (fine :: fines) coarses ↔
      ∃ coarse coarses', coarses = coarse :: coarses' ∧ fine.Refines coarse ∧
        RefinesAll fines coarses' := by
  constructor
  · intro h
    cases coarses with
    | nil => exact h.elim
    | cons coarse coarses => exact ⟨coarse, coarses, rfl, h.1, h.2⟩
  · rintro ⟨coarse, coarses', rfl, h⟩
    exact h

theorem refinesAll_nil_left {coarses : List Dimension} : RefinesAll [] coarses ↔ coarses = [] := by
  cases coarses with
  | nil => simp [RefinesAll]
  | cons coarse coarses => simp [RefinesAll]

theorem RefinesAll.refl (ds : List Dimension) : RefinesAll ds ds := by
  induction ds with
  | nil => trivial
  | cons d ds ih => exact ⟨Refines.refl d, ih⟩

theorem RefinesAll.trans {as bs cs : List Dimension} (hab : RefinesAll as bs)
    (hbc : RefinesAll bs cs) : RefinesAll as cs := by
  induction as generalizing bs cs with
  | nil =>
    obtain rfl := refinesAll_nil_left.1 hab
    exact hbc
  | cons a as ih =>
    obtain ⟨b, bs, rfl, hb, hbs⟩ := refinesAll_cons_left.1 hab
    obtain ⟨c, cs, rfl, hc, hcs⟩ := refinesAll_cons_left.1 hbc
    exact ⟨hb.trans hc, ih hbs hcs⟩

theorem RefinesAll.describesAll {as bs : List Dimension} (h : RefinesAll as bs) {ns : List Nat}
    (ha : DescribesAll as ns) : DescribesAll bs ns := by
  induction as generalizing bs ns with
  | nil =>
    obtain rfl := refinesAll_nil_left.1 h
    exact ha
  | cons a as ih =>
    obtain ⟨b, bs, rfl, hhead, htail⟩ := refinesAll_cons_left.1 h
    obtain ⟨n, ns, rfl, hn, hns⟩ := describesAll_cons_left.1 ha
    exact ⟨hhead.describes hn, ih htail hns⟩

theorem length_of_refinesAll {fines coarses : List Dimension} (h : RefinesAll fines coarses) :
    fines.length = coarses.length := by
  induction fines generalizing coarses with
  | nil => rw [refinesAll_nil_left.1 h]
  | cons fine fines ih =>
    obtain ⟨coarse, coarses, rfl, -, hrest⟩ := refinesAll_cons_left.1 h
    rw [List.length_cons, List.length_cons, ih hrest]

/-- Position by position, coarser operands have coarser results. -/
theorem exists_zip?_of_refinesAll {combine : Dimension → Dimension → Option Dimension}
    (hmono : Monotone combine) {fines fines' coarses coarses' ds : List Dimension}
    (h : RefinesAll fines coarses) (h' : RefinesAll fines' coarses')
    (hds : zip? combine fines fines' = some ds) :
    ∃ ds', zip? combine coarses coarses' = some ds' ∧ RefinesAll ds ds' := by
  induction fines generalizing fines' coarses coarses' ds with
  | nil =>
    obtain rfl := refinesAll_nil_left.1 h
    cases fines' with
    | nil =>
      obtain rfl := refinesAll_nil_left.1 h'
      exact ⟨ds, hds, RefinesAll.refl ds⟩
    | cons fine' fines' => simp [zip?] at hds
  | cons fine fines ih =>
    cases fines' with
    | nil => simp [zip?] at hds
    | cons fine' fines' =>
      obtain ⟨coarse, coarses, rfl, hhead, htail⟩ := refinesAll_cons_left.1 h
      obtain ⟨coarse', coarses', rfl, hhead', htail'⟩ := refinesAll_cons_left.1 h'
      obtain ⟨d, ds, rfl, hd, hds⟩ := zip?_cons_eq_some_iff.1 hds
      obtain ⟨e, he, hde⟩ := hmono hhead hhead' hd
      obtain ⟨es, hes, hdes⟩ := ih htail htail' hds
      exact ⟨e :: es, zip?_cons_eq_some_iff.2 ⟨e, es, rfl, he, hes⟩, hde, hdes⟩

/-- What two lists merge to refines both. -/
theorem refinesAll_of_zip?_merge {as bs ds : List Dimension}
    (h : zip? (fun a b => (a.merge b).toOption) as bs = some ds) :
    RefinesAll ds as ∧ RefinesAll ds bs := by
  induction as generalizing bs ds with
  | nil =>
    cases bs with
    | nil => simp_all [zip?, RefinesAll]
    | cons b bs => simp [zip?] at h
  | cons a as ih =>
    cases bs with
    | nil => simp [zip?] at h
    | cons b bs =>
      obtain ⟨d, ds, rfl, hd, hds⟩ := zip?_cons_eq_some_iff.1 h
      obtain ⟨hda, hdb⟩ := refines_of_merge (Outcome.toOption_eq_some_iff.1 hd)
      exact ⟨⟨hda, (ih hds).1⟩, hdb, (ih hds).2⟩

theorem refinesAll_replicate_append (k : Nat) (d : Dimension) {fines coarses : List Dimension}
    (h : RefinesAll fines coarses) :
    RefinesAll (List.replicate k d ++ fines) (List.replicate k d ++ coarses) := by
  induction k with
  | zero => exact h
  | succ k ih => exact ⟨Refines.refl d, ih⟩

/-- Dropping or replacing the same positions keeps the order of two lists. -/
theorem refinesAll_collapse (axes : AxisSet) (replacement : Option Dimension)
    {fines coarses : List Dimension} (h : RefinesAll fines coarses) :
    RefinesAll (axes.collapse replacement fines) (axes.collapse replacement coarses) := by
  unfold AxisSet.collapse
  generalize 0 = start
  induction fines generalizing coarses start with
  | nil =>
    obtain rfl := refinesAll_nil_left.1 h
    exact RefinesAll.refl _
  | cons fine fines ih =>
    obtain ⟨coarse, coarses, rfl, hhead, htail⟩ := refinesAll_cons_left.1 h
    rw [List.zipIdx_cons, List.zipIdx_cons, List.filterMap_cons, List.filterMap_cons]
    dsimp only
    by_cases hstart : axes.contains start
    · rw [if_pos hstart, if_pos hstart]
      cases replacement with
      | none => exact ih htail (start + 1)
      | some d => exact ⟨Refines.refl d, ih htail (start + 1)⟩
    · rw [if_neg hstart, if_neg hstart]
      exact ⟨hhead, ih htail (start + 1)⟩

end Dimension

namespace PartialShape

/-! ## Partial shapes -/

@[simp] theorem refines_unranked (p : PartialShape) : p.Refines unranked := by
  cases p <;> trivial

theorem refines_ranked_iff {p : PartialShape} {coarses : List Dimension} :
    p.Refines (ranked coarses) ↔
      ∃ fines, p = ranked fines ∧ Dimension.RefinesAll fines coarses := by
  cases p with
  | unranked => simp [Refines]
  | ranked fines => simp [Refines]

theorem Refines.refl (p : PartialShape) : p.Refines p := by
  cases p with
  | unranked => exact refines_unranked _
  | ranked dims => exact Dimension.RefinesAll.refl dims

theorem Refines.trans {a b c : PartialShape} (hab : a.Refines b) (hbc : b.Refines c) :
    a.Refines c := by
  cases c with
  | unranked => exact refines_unranked a
  | ranked cs =>
    obtain ⟨bs, rfl, hbc⟩ := refines_ranked_iff.1 hbc
    obtain ⟨as, rfl, hab⟩ := refines_ranked_iff.1 hab
    exact Dimension.RefinesAll.trans hab hbc

/-- What a finer shape describes, a coarser one does. -/
theorem Refines.describes {a b : PartialShape} (h : a.Refines b) {s : Shape}
    (ha : a.Describes s) : b.Describes s := by
  cases b with
  | unranked => trivial
  | ranked bs =>
    obtain ⟨as, rfl, h⟩ := refines_ranked_iff.1 h
    exact Dimension.RefinesAll.describesAll h ha

/-- A coarser shape has no rank, or the same one. -/
theorem rank?_eq_of_refines {fine coarse : PartialShape} (h : fine.Refines coarse) :
    coarse.rank? = none ∨ coarse.rank? = fine.rank? := by
  cases coarse with
  | unranked => exact Or.inl rfl
  | ranked coarses =>
    obtain ⟨fines, rfl, h⟩ := refines_ranked_iff.1 h
    exact Or.inr (by rw [rank?_ranked, rank?_ranked, Dimension.length_of_refinesAll h])

@[simp] theorem merge_unranked_left (p : PartialShape) : unranked.merge p = .ok p := rfl

@[simp] theorem merge_unranked_right (p : PartialShape) : p.merge unranked = .ok p := by
  cases p <;> rfl

theorem merge_ranked_eq_ok_iff {as bs : List Dimension} {m : PartialShape} :
    (ranked as).merge (ranked bs) = .ok m ↔
      ∃ ds, Dimension.zip? (fun a b => (a.merge b).toOption) as bs = some ds ∧ m = ranked ds := by
  rw [merge]
  cases Dimension.zip? (fun a b => (a.merge b).toOption) as bs with
  | none => simp
  | some ds => simp [eq_comm]

/-- What two shapes merge to refines both. -/
theorem refines_of_merge {a b m : PartialShape} (h : a.merge b = .ok m) :
    m.Refines a ∧ m.Refines b := by
  match a, b with
  | unranked, b =>
    rw [merge_unranked_left, Except.ok.injEq] at h
    exact ⟨refines_unranked m, h ▸ Refines.refl b⟩
  | ranked as, unranked =>
    rw [merge_unranked_right, Except.ok.injEq] at h
    exact ⟨h ▸ Refines.refl _, refines_unranked m⟩
  | ranked as, ranked bs =>
    obtain ⟨ds, hds, rfl⟩ := merge_ranked_eq_ok_iff.1 h
    exact Dimension.refinesAll_of_zip?_merge hds

/-- Coarser shapes merge, to a coarser shape. -/
theorem exists_merge_of_refines {fine fine' coarse coarse' m : PartialShape}
    (h : fine.Refines coarse) (h' : fine'.Refines coarse') (hm : fine.merge fine' = .ok m) :
    ∃ m', coarse.merge coarse' = .ok m' ∧ m.Refines m' := by
  obtain ⟨hleft, hright⟩ := refines_of_merge hm
  match coarse, coarse' with
  | unranked, coarse' => exact ⟨coarse', merge_unranked_left coarse', hright.trans h'⟩
  | ranked coarses, unranked => exact ⟨_, merge_unranked_right _, hleft.trans h⟩
  | ranked coarses, ranked coarses' =>
    obtain ⟨fines, rfl, h⟩ := refines_ranked_iff.1 h
    obtain ⟨fines', rfl, h'⟩ := refines_ranked_iff.1 h'
    obtain ⟨ds, hds, rfl⟩ := merge_ranked_eq_ok_iff.1 hm
    obtain ⟨ds', hds', hrefines⟩ :=
      Dimension.exists_zip?_of_refinesAll Dimension.monotone_merge h h' hds
    exact ⟨ranked ds', merge_ranked_eq_ok_iff.2 ⟨ds', hds', rfl⟩, hrefines⟩

/-- Coarser shapes stretch to each other, to a coarser shape. -/
theorem exists_broadcast_of_refines {fine fine' coarse coarse' r : PartialShape}
    (h : fine.Refines coarse) (h' : fine'.Refines coarse') (hr : fine.broadcast fine' = .ok r) :
    ∃ r', coarse.broadcast coarse' = .ok r' ∧ r.Refines r' := by
  by_cases hrank : coarse.rank? = none ∨ coarse'.rank? = none
  · exact ⟨unranked, broadcast_of_rank?_eq_none hrank, refines_unranked r⟩
  · match coarse, coarse' with
    | unranked, _ => simp at hrank
    | ranked _, unranked => simp at hrank
    | ranked coarses, ranked coarses' =>
      obtain ⟨fines, rfl, h⟩ := refines_ranked_iff.1 h
      obtain ⟨fines', rfl, h'⟩ := refines_ranked_iff.1 h'
      obtain ⟨ds, hds, rfl⟩ := broadcast_ranked_eq_ok_iff.1 hr
      -- Equal lengths make the padding on both levels the same.
      have hlen := Dimension.length_of_refinesAll h
      have hlen' := Dimension.length_of_refinesAll h'
      rw [stretched?, hlen, hlen'] at hds
      obtain ⟨ds', hds', hrefines⟩ :=
        Dimension.exists_zip?_of_refinesAll Dimension.monotone_broadcast?
          (Dimension.refinesAll_replicate_append _ _ h)
          (Dimension.refinesAll_replicate_append _ _ h')
          (by rwa [padded, padded, hlen, hlen'] at hds)
      exact ⟨ranked ds', broadcast_ranked_eq_ok_iff.2 ⟨ds', hds', rfl⟩, hrefines⟩

/-- A reduction of a coarser shape leaves a coarser shape. -/
theorem reduce_refines (axes axes' : AxisSet) (keepDims : Bool) {fine coarse : PartialShape}
    (h : fine.Refines coarse) (haxes : coarse.rank? = none ∨ axes = axes') :
    (fine.reduce axes keepDims).Refines (coarse.reduce axes' keepDims) := by
  cases coarse with
  | unranked => exact refines_unranked _
  | ranked coarses =>
    obtain ⟨fines, rfl, h⟩ := refines_ranked_iff.1 h
    obtain rfl : axes = axes' := by simpa using haxes
    exact Dimension.refinesAll_collapse axes _ h

end PartialShape

end TensorInference
