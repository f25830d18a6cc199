import TensorInference.Shape.Meaning

/-!
# Described shapes

What a list of dimensions describes, read position by position.  A list of dimensions describes
shapes of its own length only (`length_of_describesAll`), it describes at least one
(`exists_describesAll`), and leading ones describe leading ones
(`describesAll_replicate_one_append`).

Extents are natural numbers here, while a machine has words.  `Shape.InWord` and
`PartialShape.InWord` say that all extents are words, so that a statement can say besides that the
shapes it finds are machine shapes.
-/

namespace TensorInference

namespace Dimension

/-- The size is a word, if it is known. -/
def InWord : Dimension → Prop
  | known size => size ≤ Word.maxValue
  | unknown => True

instance : (d : Dimension) → Decidable d.InWord
  | known size => inferInstanceAs (Decidable (size ≤ Word.maxValue))
  | unknown => inferInstanceAs (Decidable True)

@[simp] theorem describes_known {size n : Nat} : (known size).Describes n ↔ size = n := Iff.rfl

@[simp] theorem describes_unknown (n : Nat) : unknown.Describes n := trivial

/-- Dimensions describe lists of their own length only. -/
theorem length_of_describesAll {ds : List Dimension} {ns : List Nat} (h : DescribesAll ds ns) :
    ns.length = ds.length := by
  induction ds generalizing ns with
  | nil =>
    cases ns with
    | nil => rfl
    | cons n ns => exact h.elim
  | cons d ds ih =>
    cases ns with
    | nil => exact h.elim
    | cons n ns => rw [List.length_cons, List.length_cons, ih h.2]

/-- A nonempty list of dimensions describes nonempty lists, entry by entry. -/
theorem describesAll_cons_left {d : Dimension} {ds : List Dimension} {ns : List Nat} :
    DescribesAll (d :: ds) ns ↔ ∃ n ns', ns = n :: ns' ∧ d.Describes n ∧ DescribesAll ds ns' := by
  constructor
  · intro h
    cases ns with
    | nil => exact h.elim
    | cons n ns => exact ⟨n, ns, rfl, h.1, h.2⟩
  · rintro ⟨n, ns', rfl, hd, hds⟩
    exact ⟨hd, hds⟩

/-- No dimensions describe the empty list. -/
theorem describesAll_nil_left {ns : List Nat} : DescribesAll [] ns ↔ ns = [] := by
  cases ns with
  | nil => exact ⟨fun _ => rfl, fun _ => trivial⟩
  | cons n ns => exact ⟨fun h => h.elim, fun h => by simp at h⟩

/-- A dimension describes some size, and a word if its own size is one. -/
theorem exists_describes (d : Dimension) :
    ∃ n, d.Describes n ∧ (d.InWord → n ≤ Word.maxValue) := by
  cases d with
  | known size => exact ⟨size, rfl, fun h => h⟩
  | unknown => exact ⟨1, trivial, fun _ => by decide⟩

theorem exists_describesAll (ds : List Dimension) :
    ∃ ns, DescribesAll ds ns ∧ ((∀ d ∈ ds, d.InWord) → ∀ n ∈ ns, n ≤ Word.maxValue) := by
  induction ds with
  | nil => exact ⟨[], trivial, by simp⟩
  | cons d ds ih =>
    obtain ⟨n, hn, hword⟩ := exists_describes d
    obtain ⟨ns, hns, hwords⟩ := ih
    refine ⟨n :: ns, ⟨hn, hns⟩, fun h => ?_⟩
    rw [List.forall_mem_cons] at h ⊢
    exact ⟨hword h.1, hwords h.2⟩

/-- Leading ones describe leading ones, and the rest describes the rest. -/
theorem describesAll_replicate_one_append {k : Nat} {ds : List Dimension} {ns : List Nat} :
    DescribesAll (List.replicate k (known 1) ++ ds) ns ↔
      ∃ ns', ns = List.replicate k 1 ++ ns' ∧ DescribesAll ds ns' := by
  induction k generalizing ns with
  | zero => simp
  | succ k ih =>
    simp only [List.replicate_succ, List.cons_append, describesAll_cons_left, ih, describes_known]
    constructor
    · rintro ⟨n, _, rfl, rfl, ns', rfl, h⟩
      exact ⟨ns', rfl, h⟩
    · rintro ⟨ns', rfl, h⟩
      exact ⟨1, _, rfl, rfl, ns', rfl, h⟩

end Dimension

namespace Shape

/-- Every extent is a word. -/
def InWord (s : Shape) : Prop :=
  ∀ n ∈ s.dims, n ≤ Word.maxValue

instance (s : Shape) : Decidable s.InWord :=
  inferInstanceAs (Decidable (∀ n ∈ s.dims, n ≤ Word.maxValue))

end Shape

namespace PartialShape

/-- Every known extent is a word. -/
def InWord : PartialShape → Prop
  | unranked => True
  | ranked dims => ∀ d ∈ dims, d.InWord

instance : (p : PartialShape) → Decidable p.InWord
  | unranked => inferInstanceAs (Decidable True)
  | ranked dims => inferInstanceAs (Decidable (∀ d ∈ dims, d.InWord))

@[simp] theorem describes_ranked {dims : List Dimension} {s : Shape} :
    (ranked dims).Describes s ↔ Dimension.DescribesAll dims s.dims := Iff.rfl

/-- A partial shape of known rank describes shapes of that rank only. -/
theorem rank_of_describes {dims : List Dimension} {s : Shape} (h : (ranked dims).Describes s) :
    s.rank = dims.length :=
  Dimension.length_of_describesAll h

/-- A shape of which everything is known is known again. -/
@[simp] theorem toShape?_ofShape (s : Shape) : (ofShape s).toShape? = some s := by
  have hsizes : (s.dims.map Dimension.known).mapM Dimension.size? = some s.dims := by
    induction s.dims with
    | nil => rfl
    | cons size dims ih =>
      rw [List.map_cons, List.mapM_cons, ih]
      rfl
  rw [ofShape, toShape?, hsizes]
  rfl

/-- A partial shape describes some shape, and a machine shape if its known extents are words. -/
theorem exists_describes (p : PartialShape) :
    ∃ s : Shape, p.Describes s ∧ (p.InWord → s.InWord) := by
  cases p with
  | unranked => exact ⟨Shape.scalar, trivial, fun _ n hn => by simp [Shape.scalar] at hn⟩
  | ranked dims =>
    obtain ⟨ns, hns, hwords⟩ := Dimension.exists_describesAll dims
    exact ⟨⟨ns⟩, hns, hwords⟩

end PartialShape

end TensorInference
