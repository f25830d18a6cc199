import TensorInference.Proofs.Refinement.Shape

/-!
# Merging of partial shapes is exact

A partial shape stands for the shapes that it describes, so to agree on two partial shapes is to
describe what both describe: merging is intersection, and it fails just when the intersection is
empty.  As for broadcasting, this is a matter of cases for one pair of dimensions, and it is carried
along two lists of the same length.  Lists of different lengths have no shape in common, which is why
`zip?` may give up on them.

* `describes_iff_of_merge`, `not_describes_of_merge` --- one pair of dimensions.
* `describesAll_iff_of_zip?_merge`, `not_describesAll_of_zip?_merge` --- two lists.
* `merge_exact` --- two partial shapes.
-/

namespace TensorInference

namespace Dimension

/-! ## One pair of dimensions -/

/-- **One pair, exactly.**  The result describes the sizes that both dimensions describe. -/
theorem describes_iff_of_merge {a b d : Dimension} (h : a.merge b = .ok d) (n : Nat) :
    d.Describes n ↔ a.Describes n ∧ b.Describes n := by
  cases a with
  | unknown =>
    rw [merge_unknown_left, Except.ok.injEq] at h
    subst h
    simp
  | known p =>
    cases b with
    | unknown =>
      rw [merge_unknown_right, Except.ok.injEq] at h
      subst h
      simp
    | known q =>
      obtain ⟨rfl, rfl⟩ := merge_known_eq_ok_iff.1 h
      rw [and_self]

/-- Only known sizes conflict, and only if they differ. -/
theorem merge_eq_error_iff {a b : Dimension} {c : Conflict} :
    a.merge b = .error c ↔
      a = known c.left ∧ b = known c.right ∧ c.left ≠ c.right := by
  cases a with
  | unknown => simp
  | known p =>
    cases b with
    | unknown => simp
    | known q =>
      show (if p = q then Except.ok (known p) else .error (⟨p, q⟩ : Conflict)) = .error c ↔ _
      by_cases hpq : p = q
      · subst hpq
        rw [if_pos rfl]
        simp only [reduceCtorEq, known.injEq, false_iff]
        rintro ⟨hleft, hright, hne⟩
        exact hne (hleft.symm.trans hright)
      · rw [if_neg hpq]
        constructor
        · intro h
          cases h
          exact ⟨rfl, rfl, hpq⟩
        · rintro ⟨hleft, hright, -⟩
          cases hleft
          cases hright
          rfl

/-- **One pair, without a result.**  No size is described by both. -/
theorem not_describes_of_merge {a b : Dimension} {c : Conflict} (h : a.merge b = .error c) {n : Nat}
    (ha : a.Describes n) : ¬b.Describes n := by
  obtain ⟨rfl, rfl, hne⟩ := merge_eq_error_iff.1 h
  rw [describes_known] at ha ⊢
  intro hb
  exact hne (ha.trans hb.symm)

/-- The result is one of the two dimensions. -/
theorem eq_or_eq_of_merge {a b d : Dimension} (h : a.merge b = .ok d) : d = a ∨ d = b := by
  obtain ⟨hleft, hright⟩ := refines_of_merge h
  rcases hleft with rfl | hleft
  · rw [merge_unknown_left, Except.ok.injEq] at h
    exact Or.inr h.symm
  · exact Or.inl hleft

/-! ## Lists of dimensions -/

theorem describesAll_iff_of_zip?_merge {as bs ds : List Dimension}
    (h : zip? (fun a b => (a.merge b).toOption) as bs = some ds) (ns : List Nat) :
    DescribesAll ds ns ↔ DescribesAll as ns ∧ DescribesAll bs ns := by
  induction as generalizing bs ds ns with
  | nil =>
    cases bs with
    | nil =>
      obtain rfl : ds = [] := by simpa [zip?] using h.symm
      rw [and_self]
    | cons b bs => simp [zip?] at h
  | cons a as ih =>
    cases bs with
    | nil => simp [zip?] at h
    | cons b bs =>
      obtain ⟨d, ds, rfl, hd, hds⟩ := zip?_cons_eq_some_iff.1 h
      have hd := Outcome.toOption_eq_some_iff.1 hd
      cases ns with
      | nil => simp [DescribesAll]
      | cons n ns =>
        have hhead := describes_iff_of_merge hd n
        have htail := ih hds ns
        show d.Describes n ∧ DescribesAll ds ns ↔
          (a.Describes n ∧ DescribesAll as ns) ∧ b.Describes n ∧ DescribesAll bs ns
        rw [hhead, htail]
        exact and_and_and_comm

theorem not_describesAll_of_zip?_merge {as bs : List Dimension}
    (h : zip? (fun a b => (a.merge b).toOption) as bs = none) {ns : List Nat}
    (ha : DescribesAll as ns) : ¬DescribesAll bs ns := by
  intro hb
  induction as generalizing bs ns with
  | nil =>
    obtain rfl := describesAll_nil_left.1 ha
    obtain rfl := List.eq_nil_of_length_eq_zero (length_of_describesAll hb).symm
    simp [zip?] at h
  | cons a as ih =>
    obtain ⟨n, ns, rfl, hn, hns⟩ := describesAll_cons_left.1 ha
    cases bs with
    | nil => exact hb.elim
    | cons b bs =>
      rcases zip?_cons_eq_none_iff.1 h with hhead | htail
      · obtain ⟨c, hc⟩ := Outcome.toOption_eq_none_iff.1 hhead
        exact not_describes_of_merge hc hn hb.1
      · exact ih htail hns hb.2

end Dimension

namespace PartialShape

/-! ## Partial shapes -/

/-- Merging fails for two known ranks only, and then it names its operands. -/
theorem merge_eq_error_iff {a b : PartialShape} {c : Conflict} :
    a.merge b = .error c ↔
      ∃ as bs, a = ranked as ∧ b = ranked bs ∧
        Dimension.zip? (fun a b => (a.merge b).toOption) as bs = none ∧ c = ⟨a, b⟩ := by
  cases a with
  | unranked => simp
  | ranked as =>
    cases b with
    | unranked => simp
    | ranked bs =>
      rw [merge]
      cases h : Dimension.zip? (fun a b => (a.merge b).toOption) as bs with
      | none => simp [h, eq_comm]
      | some ds => simp [h]

/-- The result describes the shapes that both describe. -/
theorem describes_iff_of_merge {a b m : PartialShape} (h : a.merge b = .ok m) (s : Shape) :
    m.Describes s ↔ a.Describes s ∧ b.Describes s := by
  match a, b with
  | unranked, b =>
    rw [merge_unranked_left, Except.ok.injEq] at h
    subst h
    show b.Describes s ↔ True ∧ b.Describes s
    rw [true_and]
  | ranked as, unranked =>
    rw [merge_unranked_right, Except.ok.injEq] at h
    subst h
    show (ranked as).Describes s ↔ (ranked as).Describes s ∧ True
    rw [and_true]
  | ranked as, ranked bs =>
    obtain ⟨ds, hds, rfl⟩ := merge_ranked_eq_ok_iff.1 h
    exact Dimension.describesAll_iff_of_zip?_merge hds s.dims

theorem not_describes_of_merge {a b : PartialShape} {c : Conflict} (h : a.merge b = .error c)
    {s : Shape} (ha : a.Describes s) : ¬b.Describes s := by
  obtain ⟨as, bs, rfl, rfl, hnone, -⟩ := merge_eq_error_iff.1 h
  exact Dimension.not_describesAll_of_zip?_merge hnone ha

theorem inWord_of_merge {a b m : PartialShape} (h : a.merge b = .ok m) (ha : a.InWord)
    (hb : b.InWord) : m.InWord := by
  match a, b with
  | unranked, b =>
    rw [merge_unranked_left, Except.ok.injEq] at h
    exact h ▸ hb
  | ranked as, unranked =>
    rw [merge_unranked_right, Except.ok.injEq] at h
    exact h ▸ ha
  | ranked as, ranked bs =>
    obtain ⟨ds, hds, rfl⟩ := merge_ranked_eq_ok_iff.1 h
    intro d hd
    have hchoice {a b d : Dimension} (h : (a.merge b).toOption = some d) : d = a ∨ d = b :=
      Dimension.eq_or_eq_of_merge (Outcome.toOption_eq_some_iff.1 h)
    rcases Dimension.mem_or_mem_of_zip? hchoice hds hd with hd | hd
    · exact ha d hd
    · exact hb d hd

/-- What merges has a shape in common, a machine shape for machine shapes. -/
theorem exists_describes_of_merge {a b m : PartialShape} (h : a.merge b = .ok m) :
    ∃ s, (a.Describes s ∧ b.Describes s) ∧ (a.InWord → b.InWord → s.InWord) := by
  obtain ⟨s, hs, hword⟩ := m.exists_describes
  refine ⟨s, (describes_iff_of_merge h s).1 hs, fun ha hb => ?_⟩
  exact hword (inWord_of_merge h ha hb)

theorem compatible_iff {a b : PartialShape} : a.compatible b = true ↔ ∃ m, a.merge b = .ok m := by
  rw [compatible]
  cases a.merge b with
  | error c => simp [Except.isOk, Except.toBool]
  | ok m => simp [Except.isOk, Except.toBool]

/-- Two partial shapes merge just when some shape is described by both. -/
theorem exists_merge_iff {a b : PartialShape} :
    (∃ m, a.merge b = .ok m) ↔ ∃ s, a.Describes s ∧ b.Describes s := by
  constructor
  · rintro ⟨m, hm⟩
    obtain ⟨s, hs, -⟩ := exists_describes_of_merge hm
    exact ⟨s, hs⟩
  · rintro ⟨s, ha, hb⟩
    cases hm : a.merge b with
    | ok m => exact ⟨m, rfl⟩
    | error c => exact absurd hb (not_describes_of_merge hm ha)

/-- **Merging of partial shapes is exact.**  It succeeds just when some shape is described by both
operands, and then its result describes the shapes that both describe; in all other cases it fails
and names its operands.  Shapes are compatible when they have such a shape in common.

The last part says that it makes no difference if only machine shapes are considered. -/
theorem merge_exact (a b : PartialShape) :
    ((∃ m, a.merge b = .ok m) ↔ ∃ s, a.Describes s ∧ b.Describes s) ∧
    (∀ m, a.merge b = .ok m → ∀ s, m.Describes s ↔ a.Describes s ∧ b.Describes s) ∧
    ((¬∃ s, a.Describes s ∧ b.Describes s) ↔ a.merge b = .error ⟨a, b⟩) ∧
    (a.compatible b = true ↔ ∃ s, a.Describes s ∧ b.Describes s) ∧
    (a.InWord → b.InWord → (∀ m, a.merge b = .ok m → m.InWord) ∧
      ((∃ s, a.Describes s ∧ b.Describes s) ↔
        ∃ s : Shape, s.InWord ∧ a.Describes s ∧ b.Describes s)) := by
  refine ⟨exists_merge_iff, fun m hm => describes_iff_of_merge hm, ?_, ?_, fun ha hb => ⟨?_, ?_⟩⟩
  · constructor
    · intro hnone
      cases hm : a.merge b with
      | ok m => exact absurd (exists_merge_iff.1 ⟨m, hm⟩) hnone
      | error c =>
        obtain ⟨-, -, -, -, -, rfl⟩ := merge_eq_error_iff.1 hm
        rfl
    · rintro herror ⟨s, hsa, hsb⟩
      exact not_describes_of_merge herror hsa hsb
  · rw [compatible_iff]
    exact exists_merge_iff
  · intro m hm
    exact inWord_of_merge hm ha hb
  · constructor
    · intro hs
      obtain ⟨m, hm⟩ := exists_merge_iff.2 hs
      obtain ⟨s, hs, hword⟩ := exists_describes_of_merge hm
      exact ⟨s, hword ha hb, hs⟩
    · rintro ⟨s, -, hs⟩
      exact ⟨s, hs⟩

/-- Every extent comes from the side that knows it. -/
example : (ranked [.known 2, .unknown, .unknown]).merge (ranked [.unknown, .known 0, .unknown]) =
    .ok (ranked [.known 2, .known 0, .unknown]) := rfl

end PartialShape

end TensorInference
