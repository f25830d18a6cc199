import Mathlib.Data.List.Forall2
import TensorInference.Proofs.Refinement.Shape
import TensorInference.Proofs.Unification

/-!
# Unifying partial shapes in any order

Merging and broadcasting both find least upper bounds, each in an order of its own, and so the order
and the grouping of many partial shapes do not matter to either.

For merging the order is that of `Refines`: to merge is to know what both sides know.  For
broadcasting known extents other than one are at the top, the unknown extent is below them, and one
is at the bottom (`Dimension.StretchesTo`).  A shape is below another when it stretches to the last
dimensions of the other, whatever stands in front of them (`Dimension.StretchesAll`); the ones that
pad the shorter shape are below everything, so that nothing else need be said of them.

An unknown rank has no place in the second order.  It absorbs conflicts: `{2}` and `{3}` do not
broadcast, but either of them broadcasts with an unknown rank, to an unknown rank.

* `findsJoins_merge`, `findsJoins_broadcast` --- the two kinds of least upper bounds.
* `unifiesInAnyOrder_merge_and_broadcast` --- order and grouping do not matter.
-/

namespace TensorInference

namespace Dimension

/-! ## Merging -/

theorem Refines.antisymm {a b : Dimension} (hab : a.Refines b) (hba : b.Refines a) : a = b := by
  rcases hab with rfl | hab
  · rcases hba with hba | hba
    · exact hba
    · exact hba.symm
  · exact hab

theorem RefinesAll.antisymm {as bs : List Dimension} (hab : RefinesAll as bs)
    (hba : RefinesAll bs as) : as = bs := by
  induction as generalizing bs with
  | nil => exact (refinesAll_nil_left.1 hab).symm
  | cons a as ih =>
    obtain ⟨b, bs, rfl, hhead, htail⟩ := refinesAll_cons_left.1 hab
    rw [hhead.antisymm hba.1, ih htail hba.2]

/-- What an operation leaves alone in one pair, it leaves alone in lists. -/
theorem zip?_self {combine : Dimension → Dimension → Option Dimension}
    (h : ∀ d, combine d d = some d) (ds : List Dimension) : zip? combine ds ds = some ds := by
  induction ds with
  | nil => rfl
  | cons d ds ih => exact zip?_cons_eq_some_iff.2 ⟨d, ds, rfl, h d, ih⟩

theorem merge_self (d : Dimension) : d.merge d = .ok d := by
  cases d with
  | unknown => rfl
  | known size => exact merge_known_eq_ok_iff.2 ⟨rfl, rfl⟩

/-! ## Broadcasting one pair -/

/-- An extent stretches to another: it is one, or it is unknown and the other may be anything but
one, or it is the other. -/
def StretchesTo (a b : Dimension) : Prop :=
  a = b ∨ a = known 1 ∨ a = unknown ∧ b ≠ known 1

theorem one_stretchesTo (d : Dimension) : (known 1).StretchesTo d :=
  Or.inr (Or.inl rfl)

theorem StretchesTo.refl (d : Dimension) : d.StretchesTo d :=
  Or.inl rfl

theorem StretchesTo.trans {a b c : Dimension} (hab : a.StretchesTo b) (hbc : b.StretchesTo c) :
    a.StretchesTo c := by
  rcases hab with rfl | rfl | ⟨rfl, hb⟩
  · exact hbc
  · exact one_stretchesTo c
  · rcases hbc with rfl | rfl | ⟨-, hc⟩
    · exact Or.inr (Or.inr ⟨rfl, hb⟩)
    · exact absurd rfl hb
    · exact Or.inr (Or.inr ⟨rfl, hc⟩)

theorem StretchesTo.antisymm {a b : Dimension} (hab : a.StretchesTo b) (hba : b.StretchesTo a) :
    a = b := by
  rcases hab with rfl | rfl | ⟨rfl, hb⟩
  · rfl
  · rcases hba with rfl | rfl | ⟨-, hne⟩
    · rfl
    · rfl
    · exact absurd rfl hne
  · rcases hba with rfl | rfl | ⟨rfl, -⟩
    · rfl
    · exact absurd rfl hb
    · rfl

/-- A known extent other than one stretches to nothing but itself. -/
theorem eq_of_known_stretchesTo {size : Nat} {d : Dimension} (h : (known size).StretchesTo d)
    (hsize : size ≠ 1) : d = known size := by
  rcases h with h | h | ⟨h, -⟩
  · exact h.symm
  · exact absurd (known.inj h) hsize
  · cases h

theorem stretchesTo_of_broadcast? {a b d : Dimension} (h : a.broadcast? b = some d) :
    a.StretchesTo d := by
  by_cases ha : a = known 1
  · exact Or.inr (Or.inl ha)
  · rcases refines_of_broadcast?_left h ha with rfl | rfl
    · rw [broadcast?_unknown_left, Option.some_inj] at h
      by_cases hb : b = known 1
      · rw [if_pos hb] at h
        exact Or.inl h
      · rw [if_neg hb] at h
        exact Or.inr (Or.inr ⟨rfl, h ▸ hb⟩)
    · exact StretchesTo.refl _

/-- Extents that stretch to a common one stretch to each other, and no further than that. -/
theorem exists_broadcast?_of_stretchesTo {a b u : Dimension} (ha : a.StretchesTo u)
    (hb : b.StretchesTo u) : ∃ d, a.broadcast? b = some d ∧ d.StretchesTo u := by
  cases a with
  | unknown =>
    refine ⟨_, broadcast?_unknown_left b, ?_⟩
    split
    · exact ha
    · exact hb
  | known p =>
    cases b with
    | unknown =>
      refine ⟨_, broadcast?_unknown_right _, ?_⟩
      split
      · exact hb
      · exact ha
    | known q =>
      rw [broadcast?_known]
      by_cases hp : p = 1
      · subst hp
        rw [Shape.stretch?_one_left]
        exact ⟨_, rfl, hb⟩
      · by_cases hq : q = 1
        · subst hq
          rw [Shape.stretch?_comm, Shape.stretch?_one_left]
          exact ⟨_, rfl, ha⟩
        · have hpq := (eq_of_known_stretchesTo ha hp).symm.trans (eq_of_known_stretchesTo hb hq)
          rw [known.inj hpq, Shape.stretch?_eq_some_iff.2 ⟨Or.inl rfl, Or.inl rfl, Or.inl rfl⟩]
          exact ⟨_, rfl, hb⟩

/-! ## Broadcasting lists -/

theorem forall₂_of_zip?_broadcast? {as bs ds : List Dimension}
    (h : zip? broadcast? as bs = some ds) :
    List.Forall₂ StretchesTo as ds ∧ List.Forall₂ StretchesTo bs ds := by
  induction as generalizing bs ds with
  | nil =>
    cases bs with
    | nil =>
      obtain rfl : ds = [] := by simpa [zip?] using h.symm
      exact ⟨.nil, .nil⟩
    | cons b bs => simp [zip?] at h
  | cons a as ih =>
    cases bs with
    | nil => simp [zip?] at h
    | cons b bs =>
      obtain ⟨d, ds, rfl, hd, hds⟩ := zip?_cons_eq_some_iff.1 h
      obtain ⟨has, hbs⟩ := ih hds
      refine ⟨.cons (stretchesTo_of_broadcast? hd) has, .cons ?_ hbs⟩
      rw [broadcast?_comm] at hd
      exact stretchesTo_of_broadcast? hd

theorem exists_zip?_of_forall₂ {as bs us : List Dimension} (ha : List.Forall₂ StretchesTo as us)
    (hb : List.Forall₂ StretchesTo bs us) :
    ∃ ds, zip? broadcast? as bs = some ds ∧ List.Forall₂ StretchesTo ds us := by
  induction ha generalizing bs with
  | nil =>
    obtain rfl := List.forall₂_nil_right_iff.1 hb
    exact ⟨[], rfl, .nil⟩
  | cons hau _ ih =>
    obtain ⟨b, bs, hbu, hbs, rfl⟩ := List.forall₂_cons_right_iff.1 hb
    obtain ⟨d, hd, hdu⟩ := exists_broadcast?_of_stretchesTo hau hbu
    obtain ⟨ds, hds, hdus⟩ := ih hbs
    exact ⟨d :: ds, zip?_cons_eq_some_iff.2 ⟨d, ds, rfl, hd, hds⟩, .cons hdu hdus⟩

theorem forall₂_stretchesTo_trans {as bs cs : List Dimension} (hab : List.Forall₂ StretchesTo as bs)
    (hbc : List.Forall₂ StretchesTo bs cs) : List.Forall₂ StretchesTo as cs := by
  induction hab generalizing cs with
  | nil => exact hbc
  | cons hhead _ ih =>
    obtain ⟨c, cs, hc, hcs, rfl⟩ := List.forall₂_cons_left_iff.1 hbc
    exact .cons (hhead.trans hc) (ih hcs)

theorem forall₂_stretchesTo_antisymm {as bs : List Dimension}
    (hab : List.Forall₂ StretchesTo as bs) (hba : List.Forall₂ StretchesTo bs as) : as = bs := by
  induction hab with
  | nil => rfl
  | cons hhead _ ih =>
    obtain ⟨hhead', htail'⟩ := List.forall₂_cons.1 hba
    rw [hhead.antisymm hhead', ih htail']

/-- Dimensions stretch to the last dimensions of a list. -/
def StretchesAll (as bs : List Dimension) : Prop :=
  ∃ front back, bs = front ++ back ∧ List.Forall₂ StretchesTo as back

theorem StretchesAll.refl (ds : List Dimension) : StretchesAll ds ds :=
  ⟨[], ds, rfl, List.forall₂_same.2 fun d _ => StretchesTo.refl d⟩

theorem StretchesAll.length_le {as bs : List Dimension} (h : StretchesAll as bs) :
    as.length ≤ bs.length := by
  obtain ⟨front, back, rfl, h⟩ := h
  rw [List.length_append, h.length_eq]
  exact Nat.le_add_left _ _

/-- In a list of the same length there is nothing in front of the last dimensions. -/
theorem StretchesAll.forall₂ {as bs : List Dimension} (h : StretchesAll as bs)
    (hlen : as.length = bs.length) : List.Forall₂ StretchesTo as bs := by
  obtain ⟨front, back, rfl, h⟩ := h
  rw [List.length_append, h.length_eq] at hlen
  obtain rfl : front = [] := List.eq_nil_of_length_eq_zero (by omega)
  exact h

theorem StretchesAll.trans {as bs cs : List Dimension} (hab : StretchesAll as bs)
    (hbc : StretchesAll bs cs) : StretchesAll as cs := by
  obtain ⟨front, back, rfl, hback⟩ := hab
  obtain ⟨front', back', rfl, hback'⟩ := hbc
  -- What the front of `bs` stretches to stands in front of what `as` stretches to.
  refine ⟨front' ++ back'.take front.length, back'.drop front.length, ?_, ?_⟩
  · rw [List.append_assoc, List.take_append_drop]
  · have hdrop := List.forall₂_drop front.length hback'
    rw [List.drop_left] at hdrop
    exact forall₂_stretchesTo_trans hback hdrop

theorem StretchesAll.antisymm {as bs : List Dimension} (hab : StretchesAll as bs)
    (hba : StretchesAll bs as) : as = bs := by
  have hlen := Nat.le_antisymm hab.length_le hba.length_le
  exact forall₂_stretchesTo_antisymm (hab.forall₂ hlen) (hba.forall₂ hlen.symm)

/-- Dimensions to which nothing stretches can be taken away from the front. -/
theorem StretchesAll.drop {as bs : List Dimension} (h : StretchesAll as bs) {k : Nat}
    (hk : k ≤ bs.length - as.length) : StretchesAll as (bs.drop k) := by
  obtain ⟨front, back, rfl, h⟩ := h
  rw [List.length_append, h.length_eq, Nat.add_sub_cancel] at hk
  exact ⟨front.drop k, back, List.drop_append_of_le_length hk, h⟩

end Dimension

namespace PartialShape

open Dimension

/-! ## Padding -/

theorem length_padded {rank : Nat} {ds : List Dimension} (h : ds.length ≤ rank) :
    (padded rank ds).length = rank := by
  rw [padded, List.length_append, List.length_replicate]
  omega

/-- The ones in front stretch to anything. -/
theorem forall₂_padded_iff {rank : Nat} {as us : List Dimension} (h : as.length ≤ rank) :
    List.Forall₂ StretchesTo (padded rank as) us ↔ us.length = rank ∧ StretchesAll as us := by
  constructor
  · intro hus
    refine ⟨?_, us.take (rank - as.length), us.drop (rank - as.length), ?_, ?_⟩
    · rw [← hus.length_eq, length_padded h]
    · rw [List.take_append_drop]
    · have hdrop := List.forall₂_drop (rank - as.length) hus
      rwa [padded, List.drop_left' List.length_replicate] at hdrop
  · rintro ⟨hlen, front, back, rfl, hback⟩
    rw [List.length_append, ← hback.length_eq] at hlen
    have hones : List.Forall₂ StretchesTo (List.replicate (rank - as.length) (known 1)) front := by
      refine List.forall₂_iff_zip.2 ⟨?_, fun {a b} hab => ?_⟩
      · rw [List.length_replicate]
        omega
      · rw [List.eq_of_mem_replicate (List.of_mem_zip hab).1]
        exact one_stretchesTo b
    exact List.rel_append hones hback

theorem stretchesAll_of_stretched? {as bs ds : List Dimension} (h : stretched? as bs = some ds) :
    StretchesAll as ds ∧ StretchesAll bs ds := by
  obtain ⟨ha, hb⟩ := forall₂_of_zip?_broadcast? h
  exact ⟨((forall₂_padded_iff (Nat.le_max_left _ _)).1 ha).2,
    ((forall₂_padded_iff (Nat.le_max_right _ _)).1 hb).2⟩

theorem exists_stretched?_of_stretchesAll {as bs us : List Dimension} (ha : StretchesAll as us)
    (hb : StretchesAll bs us) : ∃ ds, stretched? as bs = some ds ∧ StretchesAll ds us := by
  have hle : max as.length bs.length ≤ us.length := Nat.max_le.2 ⟨ha.length_le, hb.length_le⟩
  -- Nothing stretches to the front of `us`, where it is longer than both.
  obtain ⟨k, hk⟩ := Nat.exists_eq_add_of_le' hle
  have hlen : (us.drop k).length = max as.length bs.length := by
    rw [List.length_drop]
    omega
  obtain ⟨ds, hds, hback⟩ := exists_zip?_of_forall₂
    ((forall₂_padded_iff (Nat.le_max_left _ _)).2 ⟨hlen, ha.drop (by omega)⟩)
    ((forall₂_padded_iff (Nat.le_max_right _ _)).2 ⟨hlen, hb.drop (by omega)⟩)
  exact ⟨ds, hds, us.take k, us.drop k, (List.take_append_drop k us).symm, hback⟩

/-! ## Least upper bounds -/

theorem Refines.antisymm {a b : PartialShape} (hab : a.Refines b) (hba : b.Refines a) : a = b := by
  cases a with
  | unranked =>
    cases b with
    | unranked => rfl
    | ranked bs => exact hab.elim
  | ranked as =>
    cases b with
    | unranked => exact hba.elim
    | ranked bs => rw [RefinesAll.antisymm hab hba]

theorem merge_self (p : PartialShape) : p.merge p = .ok p := by
  cases p with
  | unranked => rfl
  | ranked dims =>
    refine merge_ranked_eq_ok_iff.2 ⟨dims, zip?_self (fun d => ?_) dims, rfl⟩
    rw [Dimension.merge_self]
    rfl

/-- Merging finds what is just coarse enough to be refined by all that refines both sides. -/
theorem findsJoins_merge :
    FindsJoins (fun a b : PartialShape => b.Refines a) merge fun _ => True where
  refl _ := Refines.refl _
  trans hab hbc := hbc.trans hab
  antisymm hab hba := hba.antisymm hab
  bounds _ _ h := ⟨trivial, refines_of_merge h⟩
  exists_of_bounded ha hb := exists_merge_of_refines ha hb (merge_self _)

/-- A shape of known rank stretches to the last dimensions of another. -/
def StretchesTo : PartialShape → PartialShape → Prop
  | ranked as, ranked bs => StretchesAll as bs
  | _, _ => False

theorem stretchesTo_iff {a b : PartialShape} :
    a.StretchesTo b ↔ ∃ as bs, a = ranked as ∧ b = ranked bs ∧ StretchesAll as bs := by
  constructor
  · intro h
    match a, b with
    | ranked as, ranked bs => exact ⟨as, bs, rfl, rfl, h⟩
    | unranked, _ => exact h.elim
    | ranked _, unranked => exact h.elim
  · rintro ⟨as, bs, rfl, rfl, h⟩
    exact h

theorem rank?_isSome_iff {p : PartialShape} : p.rank?.isSome ↔ ∃ dims, p = ranked dims := by
  cases p with
  | unranked => simp
  | ranked dims => simp

/-- Broadcasting finds what known ranks stretch to at least. -/
theorem findsJoins_broadcast : FindsJoins StretchesTo broadcast fun p => p.rank?.isSome where
  refl ha := by
    obtain ⟨as, rfl⟩ := rank?_isSome_iff.1 ha
    exact StretchesAll.refl as
  trans hab hbc := by
    obtain ⟨as, bs, rfl, rfl, hab⟩ := stretchesTo_iff.1 hab
    obtain ⟨_, cs, hbs, rfl, hbc⟩ := stretchesTo_iff.1 hbc
    cases hbs
    exact hab.trans hbc
  antisymm hab hba := by
    obtain ⟨as, bs, rfl, rfl, hab⟩ := stretchesTo_iff.1 hab
    rw [hab.antisymm hba]
  bounds ha hb h := by
    obtain ⟨as, rfl⟩ := rank?_isSome_iff.1 ha
    obtain ⟨bs, rfl⟩ := rank?_isSome_iff.1 hb
    obtain ⟨ds, hds, rfl⟩ := broadcast_ranked_eq_ok_iff.1 h
    exact ⟨rfl, stretchesAll_of_stretched? hds⟩
  exists_of_bounded ha hb := by
    obtain ⟨as, us, rfl, rfl, ha⟩ := stretchesTo_iff.1 ha
    obtain ⟨bs, _, rfl, hus, hb⟩ := stretchesTo_iff.1 hb
    cases hus
    obtain ⟨ds, hds, hdus⟩ := exists_stretched?_of_stretchesAll ha hb
    exact ⟨ranked ds, broadcast_ranked_of_some hds, hdus⟩

/-! ## Main result -/

/-- **Order and grouping do not matter** when partial shapes are merged, or broadcast if all ranks
are known: whatever the order and the bracketing, they come to the same, or none of them comes to
anything.  The unknown rank adds nothing to what is merged, the scalar shape nothing to what is
broadcast, and a shape nothing to itself. -/
theorem unifiesInAnyOrder_merge_and_broadcast :
    UnifiesInAnyOrder merge unranked (fun _ => True) ∧
      UnifiesInAnyOrder broadcast (ofShape .scalar) fun p => p.rank?.isSome := by
  constructor
  · exact findsJoins_merge.unifiesInAnyOrder trivial fun p _ => refines_unranked p
  · refine findsJoins_broadcast.unifiesInAnyOrder rfl fun p hp => ?_
    obtain ⟨dims, rfl⟩ := rank?_isSome_iff.1 hp
    exact ⟨dims, [], (List.append_nil dims).symm, .nil⟩

/-- Three shapes of different ranks, of which the last two come together first. -/
example :
    (Bracketing.pair (.item (ranked [.known 1, .unknown])) (.pair (.item (ranked [.known 3]))
      (.item (ranked [.known 4, .known 1])))).unify broadcast =
        .ok (ranked [.known 4, .known 3]) := rfl

end PartialShape

end TensorInference
