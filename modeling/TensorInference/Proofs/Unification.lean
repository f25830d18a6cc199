import TensorInference.Proofs.Outcome
import TensorInference.Unification

/-!
# Unifying in any order

Many items are unified two at a time, and a `Bracketing` says which two come together when.
Unifying from the left, as `unifyAll` does, is one bracketing of many (`unify_leftmost`).

Unifying can fail, so that commutativity and associativity are laws about failures as well as about
results.  It is easier to say what all bracketings have in common.  When the items are ordered in
such a way that two of them unify to their least upper bound, and unify whenever they have an upper
bound at all (`FindsJoins`), then every bracketing finds the least upper bound of its items and
fails just when there is none (`FindsJoins.unify_eq_ok_iff`).  Which items these are does not depend
on their order, their grouping or their repetitions.

* `UnifiesInAnyOrder` --- what it means that order and grouping do not matter.
* `FindsJoins.unifiesInAnyOrder` --- when it is so.
-/

namespace TensorInference

variable {α ε : Type}

/-- Items, and the order in which they are unified two at a time. -/
inductive Bracketing (α : Type) where
  | item (a : α)
  | pair (left right : Bracketing α)
  deriving Repr

namespace Bracketing

/-- The items from left to right. -/
def items : Bracketing α → List α
  | item a => [a]
  | pair left right => left.items ++ right.items

/-- Unifies all items, and fails as soon as two parts do not fit. -/
def unify (op : α → α → Except ε α) : Bracketing α → Except ε α
  | item a => .ok a
  | pair left right => do op (← left.unify op) (← right.unify op)

/-- Takes up items one by one, from the left. -/
def takeUp (held : Bracketing α) (items : List α) : Bracketing α :=
  items.foldl (fun held a => pair held (item a)) held

/-- The bracketing by which `unifyAll` goes. -/
def leftmost (a : α) (items : List α) : Bracketing α :=
  (item a).takeUp items

theorem unify_pair_eq_ok_iff {op : α → α → Except ε α} {left right : Bracketing α} {r : α} :
    (pair left right).unify op = .ok r ↔
      ∃ a b, left.unify op = .ok a ∧ right.unify op = .ok b ∧ op a b = .ok r := by
  rw [unify, Outcome.bind_eq_ok_iff]
  constructor
  · rintro ⟨a, ha, h⟩
    obtain ⟨b, hb, hr⟩ := Outcome.bind_eq_ok_iff.1 h
    exact ⟨a, b, ha, hb, hr⟩
  · rintro ⟨a, b, ha, hb, hr⟩
    exact ⟨a, ha, Outcome.bind_eq_ok_iff.2 ⟨b, hb, hr⟩⟩

theorem items_takeUp (held : Bracketing α) (items : List α) :
    (held.takeUp items).items = held.items ++ items := by
  induction items generalizing held with
  | nil => exact (List.append_nil _).symm
  | cons a items ih =>
    show ((pair held (item a)).takeUp items).items = _
    rw [ih, Bracketing.items, List.append_assoc]
    rfl

theorem unify_takeUp (op : α → α → Except ε α) (held : Bracketing α) (items : List α) :
    (held.takeUp items).unify op = (do unifyAll op (← held.unify op) items) := by
  induction items generalizing held with
  | nil =>
    show held.unify op = _
    cases held.unify op with
    | error e => rfl
    | ok a => rfl
  | cons a items ih =>
    show ((pair held (item a)).takeUp items).unify op = _
    rw [ih, unify]
    cases held.unify op with
    | error e => rfl
    | ok b => rfl

theorem items_leftmost (a : α) (items : List α) : (leftmost a items).items = a :: items :=
  items_takeUp (item a) items

/-- Unifying from the left is unifying by a bracketing. -/
theorem unify_leftmost (op : α → α → Except ε α) (a : α) (items : List α) :
    (leftmost a items).unify op = unifyAll op a items :=
  unify_takeUp op (item a) items

theorem exists_mem_items (t : Bracketing α) : ∃ a, a ∈ t.items := by
  induction t with
  | item a => exact ⟨a, List.mem_singleton_self a⟩
  | pair left right ihleft _ =>
    obtain ⟨a, ha⟩ := ihleft
    exact ⟨a, List.mem_append_left _ ha⟩

end Bracketing

/-- Order and grouping do not matter when items with a property `p` are unified, and `start` adds
nothing to them: whatever the bracketing, they unify to the same or not at all. -/
structure UnifiesInAnyOrder (op : α → α → Except ε α) (start : α) (p : α → Prop) : Prop where
  /-- All bracketings of all orders have the same result, or none. -/
  unify_iff_of_perm : ∀ s t : Bracketing α, (∀ a ∈ s.items, p a) → s.items.Perm t.items →
    ∀ r, s.unify op = .ok r ↔ t.unify op = .ok r
  /-- It is the result of unifying from the left, with `start` in front of the items. -/
  unify_iff_unifyAll : ∀ (t : Bracketing α) (items : List α), (∀ a ∈ items, p a) →
    t.items.Perm items → ∀ r, t.unify op = .ok r ↔ unifyAll op start items = .ok r
  identity : ∀ a, p a → op start a = .ok a ∧ op a start = .ok a
  idempotent : ∀ a, p a → op a a = .ok a
  commutative : ∀ a b, p a → p b → ∀ r, op a b = .ok r ↔ op b a = .ok r

/-! ## Least upper bounds -/

/-- An item is above all others, and below all others of which that is true. -/
structure IsJoin (below : α → α → Prop) (items : List α) (r : α) : Prop where
  above : ∀ a ∈ items, below a r
  least : ∀ u, (∀ a ∈ items, below a u) → below r u

/-- The least upper bound of some items depends on their upper bounds only. -/
theorem isJoin_congr {below : α → α → Prop} {items items' : List α}
    (h : ∀ u, (∀ a ∈ items, below a u) ↔ ∀ a ∈ items', below a u) (r : α) :
    IsJoin below items r ↔ IsJoin below items' r := by
  constructor
  · rintro ⟨above, least⟩
    exact ⟨(h r).1 above, fun u hu => least u ((h u).2 hu)⟩
  · rintro ⟨above, least⟩
    exact ⟨(h r).2 above, fun u hu => least u ((h u).1 hu)⟩

/-- Two items unify to their least upper bound, and do so whenever they have an upper bound.  The
items are those with a property `p`. -/
structure FindsJoins (below : α → α → Prop) (op : α → α → Except ε α) (p : α → Prop) : Prop where
  refl : ∀ {a}, p a → below a a
  trans : ∀ {a b c}, below a b → below b c → below a c
  antisymm : ∀ {a b}, below a b → below b a → a = b
  bounds : ∀ {a b r}, p a → p b → op a b = .ok r → p r ∧ below a r ∧ below b r
  exists_of_bounded : ∀ {a b u}, below a u → below b u → ∃ r, op a b = .ok r ∧ below r u

namespace FindsJoins

variable {below : α → α → Prop} {op : α → α → Except ε α} {p : α → Prop} {t : Bracketing α}

/-- What all bracketings keep: the result is above the items. -/
theorem bounds_unify (h : FindsJoins below op p) (ht : ∀ a ∈ t.items, p a) {r : α}
    (hr : t.unify op = .ok r) : p r ∧ ∀ a ∈ t.items, below a r := by
  induction t generalizing r with
  | item a =>
    obtain rfl := Except.ok.inj hr
    have ha := ht a (List.mem_singleton_self a)
    refine ⟨ha, fun b hb => ?_⟩
    rw [List.mem_singleton.1 hb]
    exact h.refl ha
  | pair left right ihleft ihright =>
    obtain ⟨a, b, ha, hb, hr⟩ := Bracketing.unify_pair_eq_ok_iff.1 hr
    obtain ⟨hpa, hleft⟩ := ihleft (fun c hc => ht c (List.mem_append_left _ hc)) ha
    obtain ⟨hpb, hright⟩ := ihright (fun c hc => ht c (List.mem_append_right _ hc)) hb
    obtain ⟨hpr, har, hbr⟩ := h.bounds hpa hpb hr
    refine ⟨hpr, fun c hc => ?_⟩
    rcases List.mem_append.1 hc with hc | hc
    · exact h.trans (hleft c hc) har
    · exact h.trans (hright c hc) hbr

/-- An upper bound is enough for all bracketings, and they stay below it. -/
theorem exists_unify_of_bounded (h : FindsJoins below op p) {u : α}
    (hu : ∀ a ∈ t.items, below a u) : ∃ r, t.unify op = .ok r ∧ below r u := by
  induction t with
  | item a => exact ⟨a, rfl, hu a (List.mem_singleton_self a)⟩
  | pair left right ihleft ihright =>
    obtain ⟨a, ha, hau⟩ := ihleft fun c hc => hu c (List.mem_append_left _ hc)
    obtain ⟨b, hb, hbu⟩ := ihright fun c hc => hu c (List.mem_append_right _ hc)
    obtain ⟨r, hr, hru⟩ := h.exists_of_bounded hau hbu
    exact ⟨r, Bracketing.unify_pair_eq_ok_iff.2 ⟨a, b, ha, hb, hr⟩, hru⟩

/-- **Every bracketing finds the least upper bound of its items.** -/
theorem unify_eq_ok_iff (h : FindsJoins below op p) (ht : ∀ a ∈ t.items, p a) {r : α} :
    t.unify op = .ok r ↔ IsJoin below t.items r := by
  constructor
  · intro hr
    refine ⟨(h.bounds_unify ht hr).2, fun u hu => ?_⟩
    obtain ⟨r', hr', hru⟩ := h.exists_unify_of_bounded hu
    obtain rfl : r = r' := Except.ok.inj (hr.symm.trans hr')
    exact hru
  · intro hr
    obtain ⟨r', hr', hle⟩ := h.exists_unify_of_bounded hr.above
    have hge := hr.least r' (h.bounds_unify ht hr').2
    rw [hr', h.antisymm hle hge]

/-- Bracketings with the same items come to the same. -/
theorem unify_iff_of_mem_iff (h : FindsJoins below op p) {s : Bracketing α}
    (hs : ∀ a ∈ s.items, p a) (hst : ∀ a, a ∈ s.items ↔ a ∈ t.items) (r : α) :
    s.unify op = .ok r ↔ t.unify op = .ok r := by
  have ht : ∀ a ∈ t.items, p a := fun a ha => hs a ((hst a).2 ha)
  rw [h.unify_eq_ok_iff hs, h.unify_eq_ok_iff ht]
  refine isJoin_congr (fun u => ?_) r
  simp only [hst]

/-- Two items, the second of which is above the first, unify to the second. -/
theorem op_eq_ok_of_below (h : FindsJoins below op p) {a b : α} (ha : p a) (hb : p b)
    (hab : below a b) : op a b = .ok b := by
  obtain ⟨r, hr, hrb⟩ := h.exists_of_bounded hab (h.refl hb)
  rw [hr, h.antisymm hrb (h.bounds ha hb hr).2.2]

theorem commutative (h : FindsJoins below op p) {a b : α} (ha : p a) (hb : p b) (r : α) :
    op a b = .ok r ↔ op b a = .ok r := by
  refine h.unify_iff_of_mem_iff (s := .pair (.item a) (.item b)) (t := .pair (.item b) (.item a))
    ?_ ?_ r
  · simp [Bracketing.items, ha, hb]
  · simp [Bracketing.items, or_comm]

/-- **Where unifying finds least upper bounds, order and grouping do not matter**, and an item below
all others adds nothing. -/
theorem unifiesInAnyOrder (h : FindsJoins below op p) {start : α} (hp : p start)
    (hstart : ∀ a, p a → below start a) : UnifiesInAnyOrder op start p where
  unify_iff_of_perm s t hs hst r := h.unify_iff_of_mem_iff hs (fun _ => hst.mem_iff) r
  unify_iff_unifyAll t items hitems ht r := by
    obtain ⟨a, ha⟩ := t.exists_mem_items
    have hs : ∀ b ∈ (Bracketing.leftmost start items).items, p b := by
      rw [Bracketing.items_leftmost, List.forall_mem_cons]
      exact ⟨hp, hitems⟩
    rw [← Bracketing.unify_leftmost, h.unify_eq_ok_iff hs,
      h.unify_eq_ok_iff fun b hb => hitems b (ht.mem_iff.1 hb)]
    refine isJoin_congr (fun u => ?_) r
    simp only [Bracketing.items_leftmost, List.forall_mem_cons, ht.mem_iff]
    -- There is an item, and `start` is below whatever is above that.
    have ha := ht.mem_iff.1 ha
    exact ⟨fun hu => ⟨h.trans (hstart a (hitems a ha)) (hu a ha), hu⟩, And.right⟩
  identity a ha := by
    have hleft := h.op_eq_ok_of_below hp ha (hstart a ha)
    exact ⟨hleft, (h.commutative hp ha a).1 hleft⟩
  idempotent a ha := h.op_eq_ok_of_below ha ha (h.refl ha)
  commutative a b ha hb r := h.commutative ha hb r

end FindsJoins

end TensorInference
