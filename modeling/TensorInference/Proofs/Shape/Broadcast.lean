import TensorInference.Proofs.Shape.Description

/-!
# Broadcasting of partial shapes is exact

Broadcasting of partial shapes is judged by broadcasting of the shapes that they describe.  The
comparison is made for one pair of aligned extents first, where it is a matter of cases, and is then
carried along two lists of the same length and past the ones that pad the shorter list.

* `describes_iff_of_broadcast?` / `stretch?_eq_none_of_broadcast?` --- one pair of dimensions.
* `describesAll_iff_of_zip?_broadcast?` / `stretchAll?_eq_none_of_zip?_broadcast?` --- two lists.
* `describesAll_iff_of_stretched?` / `broadcast?_eq_none_of_stretched?` --- two partial shapes.
* `broadcast_exact` --- all of it together, and what happens to an unknown rank.

An unknown extent against a known one deserves a word.  The unknown one may be one, or equal to the
known one; the result is the known extent in both cases, unless that is one, when the result is as
unknown as the unknown extent was.
-/

namespace TensorInference

namespace Shape

/-! ## Stretching -/

/-- Two extents stretch to `n` when each of them is `n` or one, and one of them is `n`. -/
theorem stretch?_eq_some_iff {a b n : Nat} :
    stretch? a b = some n ↔ (a = n ∨ a = 1) ∧ (b = n ∨ b = 1) ∧ (n = a ∨ n = b) := by
  unfold stretch?
  split
  · next h =>
    rw [Option.some_inj]
    omega
  · split
    · rw [Option.some_inj]
      omega
    · split
      · rw [Option.some_inj]
        omega
      · simp only [reduceCtorEq, false_iff]
        omega

@[simp] theorem stretch?_one_left (n : Nat) : stretch? 1 n = some n := by
  rw [stretch?_eq_some_iff]
  omega

theorem stretch?_comm (a b : Nat) : stretch? a b = stretch? b a := by
  apply Option.ext
  intro n
  rw [stretch?_eq_some_iff, stretch?_eq_some_iff]
  omega

@[simp] theorem stretchAll?_nil : stretchAll? [] [] = some [] := rfl

theorem stretchAll?_cons_eq_some_iff {a b : Nat} {as bs ns : List Nat} :
    stretchAll? (a :: as) (b :: bs) = some ns ↔
      ∃ n ns', ns = n :: ns' ∧ stretch? a b = some n ∧ stretchAll? as bs = some ns' := by
  simp only [stretchAll?, Option.bind_eq_bind, Option.bind_eq_some_iff, Option.pure_def,
    Option.some.injEq]
  constructor
  · rintro ⟨n, hn, ns', hns, rfl⟩
    exact ⟨n, ns', rfl, hn, hns⟩
  · rintro ⟨n, ns', rfl, hn, hns⟩
    exact ⟨n, hn, ns', hns, rfl⟩

theorem stretchAll?_comm (as bs : List Nat) : stretchAll? as bs = stretchAll? bs as := by
  induction as generalizing bs with
  | nil => cases bs <;> rfl
  | cons a as ih =>
    cases bs with
    | nil => rfl
    | cons b bs => rw [stretchAll?, stretchAll?, stretch?_comm, ih]

/-- Ones stretch to whatever stands against them. -/
theorem stretchAll?_replicate_one (ns : List Nat) :
    stretchAll? (List.replicate ns.length 1) ns = some ns := by
  induction ns with
  | nil => rfl
  | cons n ns ih =>
    rw [List.length_cons, List.replicate_succ, stretchAll?_cons_eq_some_iff]
    exact ⟨n, ns, rfl, stretch?_one_left n, ih⟩

theorem length_of_stretchAll? {as bs ns : List Nat} (h : stretchAll? as bs = some ns) :
    as.length = ns.length ∧ bs.length = ns.length := by
  induction as generalizing bs ns with
  | nil =>
    cases bs with
    | nil => simp_all
    | cons b bs => simp [stretchAll?] at h
  | cons a as ih =>
    cases bs with
    | nil => simp [stretchAll?] at h
    | cons b bs =>
      obtain ⟨n, ns', rfl, -, h⟩ := stretchAll?_cons_eq_some_iff.1 h
      have := ih h
      simp [this.1, this.2]

/-- Stretching neither leaves the word nor enters it. -/
theorem forall_le_of_stretchAll? {as bs ns : List Nat} (h : stretchAll? as bs = some ns) :
    (∀ n ∈ ns, n ≤ Word.maxValue) ↔
      (∀ a ∈ as, a ≤ Word.maxValue) ∧ ∀ b ∈ bs, b ≤ Word.maxValue := by
  induction as generalizing bs ns with
  | nil =>
    cases bs with
    | nil => simp_all
    | cons b bs => simp [stretchAll?] at h
  | cons a as ih =>
    cases bs with
    | nil => simp [stretchAll?] at h
    | cons b bs =>
      obtain ⟨n, ns', rfl, hn, h⟩ := stretchAll?_cons_eq_some_iff.1 h
      have hword : n ≤ Word.maxValue ↔ a ≤ Word.maxValue ∧ b ≤ Word.maxValue := by
        rw [stretch?_eq_some_iff] at hn
        have : (1 : Nat) ≤ Word.maxValue := by decide
        omega
      simp only [List.forall_mem_cons, hword, ih h]
      exact and_and_and_comm

theorem length_padded (rank : Nat) (dims : List Nat) :
    (padded rank dims).length = max rank dims.length := by
  rw [padded, List.length_append, List.length_replicate]
  omega

theorem broadcast?_eq_some_iff {a b s : Shape} :
    broadcast? a b = some s ↔
      stretchAll? (padded (max a.rank b.rank) a.dims) (padded (max a.rank b.rank) b.dims) =
        some s.dims := by
  rw [broadcast?, Option.map_eq_some_iff]
  constructor
  · rintro ⟨dims, h, rfl⟩
    exact h
  · intro h
    exact ⟨s.dims, h, rfl⟩

theorem broadcast?_comm (a b : Shape) : broadcast? a b = broadcast? b a := by
  rw [broadcast?, broadcast?, stretchAll?_comm, Nat.max_comm]

/-- The result of broadcasting has the larger of the two ranks. -/
theorem rank_of_broadcast? {a b s : Shape} (h : broadcast? a b = some s) :
    s.rank = max a.rank b.rank := by
  have hlen := (length_of_stretchAll? (broadcast?_eq_some_iff.1 h)).1
  rw [length_padded] at hlen
  change max (max a.rank b.rank) a.rank = s.rank at hlen
  omega

/-- A shape broadcasts with a shape of ones, whatever their ranks. -/
theorem exists_broadcast?_ones (k : Nat) (s : Shape) :
    ∃ t, broadcast? ⟨List.replicate k 1⟩ s = some t := by
  refine ⟨⟨padded (max k s.rank) s.dims⟩, broadcast?_eq_some_iff.2 ?_⟩
  have hrank : (⟨List.replicate k 1⟩ : Shape).rank = k := List.length_replicate
  have hones : padded (max k s.rank) (List.replicate k 1) =
      List.replicate (padded (max k s.rank) s.dims).length 1 := by
    have hle : s.dims.length ≤ max k s.rank := Nat.le_max_right _ _
    rw [length_padded, padded, List.length_replicate, List.replicate_append_replicate]
    congr 1
    omega
  rw [hrank, hones]
  exact stretchAll?_replicate_one _

/-- Broadcasting neither leaves the word nor enters it. -/
theorem inWord_of_broadcast? {a b s : Shape} (h : broadcast? a b = some s) :
    s.InWord ↔ a.InWord ∧ b.InWord := by
  have hones (rank : Nat) (dims : List Nat) :
      (∀ n ∈ padded rank dims, n ≤ Word.maxValue) ↔ ∀ n ∈ dims, n ≤ Word.maxValue := by
    have : (1 : Nat) ≤ Word.maxValue := by decide
    simp only [padded, List.mem_append, List.mem_replicate]
    constructor
    · intro h n hn
      exact h n (Or.inr hn)
    · rintro h n (⟨-, rfl⟩ | hn)
      · exact this
      · exact h n hn
  have h := forall_le_of_stretchAll? (broadcast?_eq_some_iff.1 h)
  rwa [hones, hones] at h

end Shape

namespace Dimension

/-! ## One pair of dimensions -/

/-- Known sizes stretch as extents do. -/
theorem broadcast?_known (p q : Nat) :
    (known p).broadcast? (known q) = (Shape.stretch? p q).map known := by
  unfold broadcast? Shape.stretch?
  by_cases hpq : p = q
  · simp [hpq]
  · rw [if_neg hpq, if_neg (fun h => hpq (known.inj h))]
    by_cases hp : p = 1
    · simp [hp]
    · by_cases hq : q = 1
      · subst hq
        rw [if_neg hp, if_pos rfl]
        split <;> simp_all
      · simp [hp, hq]

/-- An unknown extent gives way to a known one, unless that is one. -/
theorem broadcast?_unknown_left (d : Dimension) :
    unknown.broadcast? d = some (if d = known 1 then unknown else d) := by
  unfold broadcast?
  cases d with
  | unknown => simp
  | known q =>
    by_cases hq : q = 1
    · simp [hq]
    · simp [hq]

theorem broadcast?_unknown_right (d : Dimension) :
    d.broadcast? unknown = some (if d = known 1 then unknown else d) := by
  unfold broadcast?
  cases d with
  | unknown => simp
  | known p =>
    by_cases hp : p = 1
    · simp [hp]
    · simp [hp]

/-- What one known extent and an unknown one stretch to. -/
theorem exists_stretch?_iff {q n : Nat} :
    (∃ x, Shape.stretch? x q = some n) ↔ (if q = 1 then unknown else known q).Describes n := by
  simp only [Shape.stretch?_eq_some_iff]
  split
  · next hq => exact ⟨fun _ => trivial, fun _ => ⟨n, by omega⟩⟩
  · next hq =>
    rw [describes_known]
    constructor
    · rintro ⟨x, h⟩
      omega
    · rintro rfl
      exact ⟨q, by omega⟩

/-- **One pair, exactly.**  The result describes what the described extents stretch to. -/
theorem describes_iff_of_broadcast? {a b d : Dimension} (h : a.broadcast? b = some d) (n : Nat) :
    d.Describes n ↔ ∃ x y, a.Describes x ∧ b.Describes y ∧ Shape.stretch? x y = some n := by
  cases a with
  | unknown =>
    rw [broadcast?_unknown_left, Option.some_inj] at h
    subst h
    cases b with
    | unknown =>
      refine ⟨fun _ => ⟨n, n, trivial, trivial, ?_⟩, fun _ => by simp⟩
      rw [Shape.stretch?_eq_some_iff]
      omega
    | known q =>
      have hd : (if known q = known 1 then unknown else known q) =
          if q = 1 then unknown else known q := by simp
      rw [hd, ← exists_stretch?_iff]
      simp
  | known p =>
    cases b with
    | unknown =>
      rw [broadcast?_unknown_right, Option.some_inj] at h
      have hd : d = if p = 1 then unknown else known p := by rw [← h]; simp
      rw [hd, ← exists_stretch?_iff]
      simp [Shape.stretch?_comm p]
    | known q =>
      rw [broadcast?_known, Option.map_eq_some_iff] at h
      obtain ⟨m, hm, rfl⟩ := h
      simp [hm]

/-- **One pair, without a result.**  No two described extents stretch to each other. -/
theorem stretch?_eq_none_of_broadcast? {a b : Dimension} (h : a.broadcast? b = none) {x y : Nat}
    (hx : a.Describes x) (hy : b.Describes y) : Shape.stretch? x y = none := by
  cases a with
  | unknown => simp [broadcast?_unknown_left] at h
  | known p =>
    cases b with
    | unknown => simp [broadcast?_unknown_right] at h
    | known q =>
      rw [describes_known] at hx hy
      rw [broadcast?_known, Option.map_eq_none_iff] at h
      rwa [← hx, ← hy]

/-! ## Lists of dimensions -/

/-- A first position that has a result leaves the rest to be combined. -/
theorem zip?_cons_eq_some_iff {combine : Dimension → Dimension → Option Dimension}
    {a b : Dimension} {as bs ds : List Dimension} :
    zip? combine (a :: as) (b :: bs) = some ds ↔
      ∃ d ds', ds = d :: ds' ∧ combine a b = some d ∧ zip? combine as bs = some ds' := by
  simp only [zip?, Option.bind_eq_bind, Option.bind_eq_some_iff, Option.pure_def,
    Option.some.injEq]
  constructor
  · rintro ⟨d, hd, ds', hds, rfl⟩
    exact ⟨d, ds', rfl, hd, hds⟩
  · rintro ⟨d, ds', rfl, hd, hds⟩
    exact ⟨d, hd, ds', hds, rfl⟩

theorem zip?_cons_eq_none_iff {combine : Dimension → Dimension → Option Dimension}
    {a b : Dimension} {as bs : List Dimension} :
    zip? combine (a :: as) (b :: bs) = none ↔ combine a b = none ∨ zip? combine as bs = none := by
  rw [zip?]
  cases combine a b with
  | none => simp
  | some d => cases zip? combine as bs <;> simp

theorem describesAll_iff_of_zip?_broadcast? {as bs ds : List Dimension}
    (h : zip? broadcast? as bs = some ds) (ns : List Nat) :
    DescribesAll ds ns ↔
      ∃ xs ys, DescribesAll as xs ∧ DescribesAll bs ys ∧ Shape.stretchAll? xs ys = some ns := by
  induction as generalizing bs ds ns with
  | nil =>
    cases bs with
    | nil =>
      obtain rfl : ds = [] := by simpa [zip?] using h.symm
      simp [describesAll_nil_left, eq_comm]
    | cons b bs => simp [zip?] at h
  | cons a as ih =>
    cases bs with
    | nil => simp [zip?] at h
    | cons b bs =>
      obtain ⟨d, ds', rfl, hd, hds⟩ := zip?_cons_eq_some_iff.1 h
      simp only [describesAll_cons_left, describes_iff_of_broadcast? hd, ih hds]
      constructor
      · rintro ⟨n, ns', rfl, ⟨x, y, hx, hy, hn⟩, xs, ys, hxs, hys, hns⟩
        refine ⟨x :: xs, y :: ys, ⟨x, xs, rfl, hx, hxs⟩, ⟨y, ys, rfl, hy, hys⟩, ?_⟩
        exact Shape.stretchAll?_cons_eq_some_iff.2 ⟨n, ns', rfl, hn, hns⟩
      · rintro ⟨_, _, ⟨x, xs, rfl, hx, hxs⟩, ⟨y, ys, rfl, hy, hys⟩, hns⟩
        obtain ⟨n, ns', rfl, hn, hns'⟩ := Shape.stretchAll?_cons_eq_some_iff.1 hns
        exact ⟨n, ns', rfl, ⟨x, y, hx, hy, hn⟩, xs, ys, hxs, hys, hns'⟩

theorem stretchAll?_eq_none_of_zip?_broadcast? {as bs : List Dimension}
    (h : zip? broadcast? as bs = none) {xs ys : List Nat} (hxs : DescribesAll as xs)
    (hys : DescribesAll bs ys) : Shape.stretchAll? xs ys = none := by
  induction as generalizing bs xs ys with
  | nil =>
    obtain rfl := describesAll_nil_left.1 hxs
    cases bs with
    | nil => simp [zip?] at h
    | cons b bs =>
      obtain ⟨y, ys, rfl, -⟩ := describesAll_cons_left.1 hys
      rfl
  | cons a as ih =>
    obtain ⟨x, xs, rfl, hx, hxs⟩ := describesAll_cons_left.1 hxs
    cases bs with
    | nil =>
      obtain rfl := describesAll_nil_left.1 hys
      rfl
    | cons b bs =>
      obtain ⟨y, ys, rfl, hy, hys⟩ := describesAll_cons_left.1 hys
      rw [Option.eq_none_iff_forall_not_mem]
      intro ns hns
      obtain ⟨n, ns', -, hn, hns'⟩ := Shape.stretchAll?_cons_eq_some_iff.1 hns
      rcases zip?_cons_eq_none_iff.1 h with hab | hrest
      · rw [stretch?_eq_none_of_broadcast? hab hx hy] at hn
        exact absurd hn (by simp)
      · rw [ih hrest hxs hys] at hns'
        exact absurd hns' (by simp)

/-- The result is one of the two dimensions. -/
theorem eq_or_eq_of_broadcast? {a b d : Dimension} (h : a.broadcast? b = some d) :
    d = a ∨ d = b := by
  cases a with
  | unknown =>
    rw [broadcast?_unknown_left, Option.some_inj] at h
    subst h
    split
    · exact Or.inl rfl
    · exact Or.inr rfl
  | known p =>
    cases b with
    | unknown =>
      rw [broadcast?_unknown_right, Option.some_inj] at h
      subst h
      split
      · exact Or.inr rfl
      · exact Or.inl rfl
    | known q =>
      rw [broadcast?_known, Option.map_eq_some_iff] at h
      obtain ⟨m, hm, rfl⟩ := h
      rcases (Shape.stretch?_eq_some_iff.1 hm).2.2 with rfl | rfl
      · exact Or.inl rfl
      · exact Or.inr rfl

/-- Where every result is one of two dimensions, so is every entry of a list of results. -/
theorem mem_or_mem_of_zip? {combine : Dimension → Dimension → Option Dimension}
    (hchoice : ∀ {a b d}, combine a b = some d → d = a ∨ d = b) {as bs ds : List Dimension}
    (h : zip? combine as bs = some ds) {d : Dimension} (hd : d ∈ ds) : d ∈ as ∨ d ∈ bs := by
  induction as generalizing bs ds with
  | nil =>
    cases bs with
    | nil => simp_all [zip?]
    | cons b bs => simp [zip?] at h
  | cons a as ih =>
    cases bs with
    | nil => simp [zip?] at h
    | cons b bs =>
      obtain ⟨d', ds', rfl, hd', hds⟩ := zip?_cons_eq_some_iff.1 h
      rcases List.mem_cons.1 hd with rfl | hd
      · rcases hchoice hd' with rfl | rfl
        · exact Or.inl List.mem_cons_self
        · exact Or.inr List.mem_cons_self
      · rcases ih hds hd with hd | hd
        · exact Or.inl (List.mem_cons_of_mem _ hd)
        · exact Or.inr (List.mem_cons_of_mem _ hd)

end Dimension

namespace PartialShape

/-! ## Partial shapes -/

theorem describesAll_padded_iff {rank : Nat} {ds : List Dimension} {ns : List Nat} :
    Dimension.DescribesAll (padded rank ds) ns ↔
      ∃ ns', ns = Shape.padded rank ns' ∧ Dimension.DescribesAll ds ns' := by
  rw [padded, Dimension.describesAll_replicate_one_append]
  constructor
  · rintro ⟨ns', rfl, h⟩
    exact ⟨ns', by rw [Shape.padded, Dimension.length_of_describesAll h], h⟩
  · rintro ⟨ns', rfl, h⟩
    exact ⟨ns', by rw [Shape.padded, Dimension.length_of_describesAll h], h⟩

theorem inWord_of_mem_padded {rank : Nat} {ds : List Dimension} (h : ∀ d ∈ ds, d.InWord)
    {d : Dimension} (hd : d ∈ padded rank ds) : d.InWord := by
  rw [padded, List.mem_append, List.mem_replicate] at hd
  rcases hd with ⟨-, rfl⟩ | hd
  · exact show 1 ≤ Word.maxValue by decide
  · exact h d hd

/-- The dimensions that two ranked shapes stretch to, padded to the larger rank. -/
def stretched? (as bs : List Dimension) : Option (List Dimension) :=
  Dimension.zip? Dimension.broadcast? (padded (max as.length bs.length) as)
    (padded (max as.length bs.length) bs)

theorem broadcast_of_rank?_eq_none {a b : PartialShape} (h : a.rank? = none ∨ b.rank? = none) :
    a.broadcast b = .ok unranked := by
  match a, b with
  | unranked, _ => rfl
  | ranked _, unranked => rfl
  | ranked as, ranked bs => simp at h

theorem broadcast_ranked_of_some {as bs ds : List Dimension} (h : stretched? as bs = some ds) :
    (ranked as).broadcast (ranked bs) = .ok (ranked ds) := by
  rw [stretched?] at h
  simp only [broadcast, h]

theorem broadcast_ranked_of_none {as bs : List Dimension} (h : stretched? as bs = none) :
    (ranked as).broadcast (ranked bs) = .error ⟨ranked as, ranked bs⟩ := by
  rw [stretched?] at h
  simp only [broadcast, h]

theorem broadcast_ranked_eq_ok_iff {as bs : List Dimension} {r : PartialShape} :
    (ranked as).broadcast (ranked bs) = .ok r ↔ ∃ ds, stretched? as bs = some ds ∧ r = ranked ds := by
  cases h : stretched? as bs with
  | none => simp [broadcast_ranked_of_none h]
  | some ds => simp [broadcast_ranked_of_some h, eq_comm]

/-- Broadcasting fails for two known ranks only, and then it names its operands. -/
theorem broadcast_eq_error_iff {a b : PartialShape} {c : Conflict} :
    a.broadcast b = .error c ↔
      ∃ as bs, a = ranked as ∧ b = ranked bs ∧ stretched? as bs = none ∧ c = ⟨a, b⟩ := by
  cases a with
  | unranked => simp [broadcast]
  | ranked as =>
    cases b with
    | unranked => simp [broadcast]
    | ranked bs =>
      cases h : stretched? as bs with
      | none => simp [broadcast_ranked_of_none h, h, eq_comm]
      | some ds => simp [broadcast_ranked_of_some h, h]

/-- The result describes the shapes to which the described shapes stretch. -/
theorem describesAll_iff_of_stretched? {as bs ds : List Dimension} (h : stretched? as bs = some ds)
    (s : Shape) :
    Dimension.DescribesAll ds s.dims ↔
      ∃ x y, (ranked as).Describes x ∧ (ranked bs).Describes y ∧ Shape.broadcast? x y = some s := by
  rw [Dimension.describesAll_iff_of_zip?_broadcast? h]
  simp only [describesAll_padded_iff, Shape.broadcast?_eq_some_iff, describes_ranked]
  constructor
  · rintro ⟨_, _, ⟨xs, rfl, hxs⟩, ⟨ys, rfl, hys⟩, hns⟩
    refine ⟨⟨xs⟩, ⟨ys⟩, hxs, hys, ?_⟩
    rwa [rank_of_describes (s := ⟨xs⟩) hxs, rank_of_describes (s := ⟨ys⟩) hys]
  · rintro ⟨x, y, hx, hy, hs⟩
    refine ⟨_, _, ⟨x.dims, rfl, hx⟩, ⟨y.dims, rfl, hy⟩, ?_⟩
    rwa [rank_of_describes hx, rank_of_describes hy] at hs

theorem broadcast?_eq_none_of_stretched? {as bs : List Dimension} (h : stretched? as bs = none)
    {x y : Shape} (hx : (ranked as).Describes x) (hy : (ranked bs).Describes y) :
    Shape.broadcast? x y = none := by
  rw [Shape.broadcast?, rank_of_describes hx, rank_of_describes hy, Option.map_eq_none_iff]
  exact Dimension.stretchAll?_eq_none_of_zip?_broadcast? h
    (describesAll_padded_iff.2 ⟨_, rfl, hx⟩) (describesAll_padded_iff.2 ⟨_, rfl, hy⟩)

theorem inWord_of_stretched? {as bs ds : List Dimension} (h : stretched? as bs = some ds)
    (ha : (ranked as).InWord) (hb : (ranked bs).InWord) : (ranked ds).InWord := by
  intro d hd
  rcases Dimension.mem_or_mem_of_zip? Dimension.eq_or_eq_of_broadcast? h hd with hd | hd
  · exact inWord_of_mem_padded ha hd
  · exact inWord_of_mem_padded hb hd

/-- A shape of unknown rank stretches with any other, to results of any rank from some on. -/
theorem exists_broadcast?_of_unranked (b : PartialShape) (k : Nat) :
    ∃ x y s, b.Describes y ∧ Shape.broadcast? x y = some s ∧ k ≤ s.rank ∧
      (b.InWord → s.InWord) := by
  obtain ⟨y, hy, hword⟩ := b.exists_describes
  obtain ⟨s, hs⟩ := Shape.exists_broadcast?_ones k y
  refine ⟨_, y, s, hy, hs, ?_, fun hb => ?_⟩
  · have hones : (⟨List.replicate k 1⟩ : Shape).rank = k := List.length_replicate
    rw [Shape.rank_of_broadcast? hs, hones]
    exact Nat.le_max_left _ _
  · refine (Shape.inWord_of_broadcast? hs).2 ⟨fun n hn => ?_, hword hb⟩
    rw [List.eq_of_mem_replicate hn]
    decide

/-- Results of a rank from `k` on, when the rank of either operand is unknown. -/
theorem exists_broadcast?_of_rank?_eq_none {a b : PartialShape}
    (h : a.rank? = none ∨ b.rank? = none) (k : Nat) :
    ∃ x y s, a.Describes x ∧ b.Describes y ∧ Shape.broadcast? x y = some s ∧ k ≤ s.rank ∧
      (a.InWord → b.InWord → s.InWord) := by
  cases a with
  | unranked =>
    obtain ⟨x, y, s, hy, hs, hk, hword⟩ := b.exists_broadcast?_of_unranked k
    exact ⟨x, y, s, trivial, hy, hs, hk, fun _ => hword⟩
  | ranked as =>
    cases b with
    | unranked =>
      obtain ⟨y, x, s, hx, hs, hk, hword⟩ := (ranked as).exists_broadcast?_of_unranked k
      rw [Shape.broadcast?_comm] at hs
      exact ⟨x, y, s, hx, trivial, hs, hk, fun ha _ => hword ha⟩
    | ranked bs => simp at h

/-- What broadcasts describes shapes that do, machine shapes for machine shapes. -/
theorem exists_broadcast?_of_broadcast {a b r : PartialShape} (h : a.broadcast b = .ok r) :
    ∃ x y s, a.Describes x ∧ b.Describes y ∧ Shape.broadcast? x y = some s ∧
      (a.InWord → b.InWord → s.InWord) := by
  by_cases hrank : a.rank? = none ∨ b.rank? = none
  · obtain ⟨x, y, s, hx, hy, hs, -, hword⟩ := exists_broadcast?_of_rank?_eq_none hrank 0
    exact ⟨x, y, s, hx, hy, hs, hword⟩
  · match a, b with
    | unranked, _ => simp at hrank
    | ranked _, unranked => simp at hrank
    | ranked as, ranked bs =>
      obtain ⟨ds, hds, rfl⟩ := broadcast_ranked_eq_ok_iff.1 h
      obtain ⟨s, hs, hword⟩ := (ranked ds).exists_describes
      obtain ⟨x, y, hx, hy, hxy⟩ := (describesAll_iff_of_stretched? hds s).1 hs
      exact ⟨x, y, s, hx, hy, hxy, fun ha hb => hword (inWord_of_stretched? hds ha hb)⟩

/-- **Broadcasting of partial shapes is exact.**  It fails, and names its operands, just when no
described shapes broadcast.  For known ranks its result describes the results of broadcasting
described shapes, and nothing else.  For an unknown rank nothing is known of the result, and
nothing could be: those results have more than one rank.

The last two parts say that it makes no difference if only machine shapes are considered. -/
theorem broadcast_exact (a b : PartialShape) :
    ((∃ c, a.broadcast b = .error c) ↔
      ∀ x y, a.Describes x → b.Describes y → Shape.broadcast? x y = none) ∧
    (∀ c, a.broadcast b = .error c → c = ⟨a, b⟩) ∧
    (∀ r, a.broadcast b = .ok r → a.rank?.isSome → b.rank?.isSome → ∀ s, r.Describes s ↔
      ∃ x y, a.Describes x ∧ b.Describes y ∧ Shape.broadcast? x y = some s) ∧
    (a.rank? = none ∨ b.rank? = none → a.broadcast b = .ok unranked ∧
      ∀ p : PartialShape, p.rank?.isSome → ∃ x y s, a.Describes x ∧ b.Describes y ∧
        Shape.broadcast? x y = some s ∧ ¬p.Describes s ∧ (a.InWord → b.InWord → s.InWord)) ∧
    (∀ x y s, Shape.broadcast? x y = some s → (s.InWord ↔ x.InWord ∧ y.InWord)) ∧
    (a.InWord → b.InWord → ∀ r, a.broadcast b = .ok r → ∃ x y s, a.Describes x ∧ b.Describes y ∧
      Shape.broadcast? x y = some s ∧ s.InWord) := by
  refine ⟨⟨?_, fun h => ?_⟩, fun c hc => ?_, ?_, fun hrank => ⟨?_, ?_⟩, ?_, ?_⟩
  · rintro ⟨c, hc⟩ x y hx hy
    obtain ⟨as, bs, rfl, rfl, hds, -⟩ := broadcast_eq_error_iff.1 hc
    exact broadcast?_eq_none_of_stretched? hds hx hy
  · cases hab : a.broadcast b with
    | error c => exact ⟨c, rfl⟩
    | ok r =>
      obtain ⟨x, y, s, hx, hy, hs, -⟩ := exists_broadcast?_of_broadcast hab
      rw [h x y hx hy] at hs
      exact absurd hs (by simp)
  · obtain ⟨-, -, -, -, -, hc⟩ := broadcast_eq_error_iff.1 hc
    exact hc
  · intro r hr ha hb s
    match a, b with
    | unranked, _ => simp at ha
    | ranked _, unranked => simp at hb
    | ranked as, ranked bs =>
      obtain ⟨ds, hds, rfl⟩ := broadcast_ranked_eq_ok_iff.1 hr
      exact describesAll_iff_of_stretched? hds s
  · exact broadcast_of_rank?_eq_none hrank
  · intro p hp
    cases p with
    | unranked => simp at hp
    | ranked dims =>
      -- One rank more than `dims` has is out of its reach.
      obtain ⟨x, y, s, hx, hy, hs, hk, hword⟩ :=
        exists_broadcast?_of_rank?_eq_none hrank (dims.length + 1)
      refine ⟨x, y, s, hx, hy, hs, fun hdims => ?_, hword⟩
      have := rank_of_describes hdims
      omega
  · intro x y s hs
    exact Shape.inWord_of_broadcast? hs
  · intro ha hb r hr
    obtain ⟨x, y, s, hx, hy, hs, hword⟩ := exists_broadcast?_of_broadcast hr
    exact ⟨x, y, s, hx, hy, hs, hword ha hb⟩

/-- An unknown extent against three comes out as three, whatever pads the shorter shape. -/
example : (ranked [.known 1, .unknown]).broadcast (ranked [.known 3]) =
    .ok (ranked [.known 1, .known 3]) := rfl

end PartialShape

end TensorInference
