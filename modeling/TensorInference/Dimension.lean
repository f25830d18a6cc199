/-!
# Dimensions

The extent of a tensor along one axis, which may not be known yet.

`merge` keeps what is known on either side.  `broadcast?` is the rule by which two aligned
dimensions stretch to one: an extent of one gives way to the other side, and an unknown extent to
a known one.
-/

namespace TensorInference

/-- The extent along one axis. -/
inductive Dimension where
  | known (size : Nat)
  | unknown
  deriving DecidableEq, Repr

namespace Dimension

instance : Inhabited Dimension := ⟨unknown⟩

/-- The dimension of an optional size. -/
def ofOption : Option Nat → Dimension
  | some size => known size
  | none => unknown

/-- The size, if it is known. -/
def size? : Dimension → Option Nat
  | known size => some size
  | unknown => none

@[simp] theorem ofOption_size? (d : Dimension) : ofOption d.size? = d := by
  cases d <;> rfl

@[simp] theorem size?_ofOption (n : Option Nat) : (ofOption n).size? = n := by
  cases n <;> rfl

def isKnown (d : Dimension) : Bool :=
  d.size?.isSome

/-- A size, or a question mark. -/
def text : Dimension → String
  | known size => toString size
  | unknown => "?"

/-- Two known sizes that differ. -/
structure Conflict where
  left : Nat
  right : Nat
  deriving DecidableEq, Repr

def Conflict.message (c : Conflict) : String :=
  s!"dimensions {c.left} and {c.right} are incompatible"

/-- The dimension that both sides agree on. -/
def merge : Dimension → Dimension → Except Conflict Dimension
  | unknown, d => .ok d
  | d, unknown => .ok d
  | known a, known b => if a = b then .ok (known a) else .error ⟨a, b⟩

/-- Two dimensions are compatible when they merge. -/
def compatible (a b : Dimension) : Bool :=
  (a.merge b).isOk

/-- The dimension to which two aligned dimensions stretch, if there is one. -/
def broadcast? (a b : Dimension) : Option Dimension :=
  if a = b then some a
  else match a, b with
    | known 1, d => some d
    | d, known 1 => some d
    | unknown, d => some d
    | d, unknown => some d
    | known _, known _ => none

/-- Combines two lists of the same length position by position; there is no result when the
lengths differ or a position has none. -/
def zip? (combine : Dimension → Dimension → Option Dimension) :
    List Dimension → List Dimension → Option (List Dimension)
  | [], [] => some []
  | a :: as, b :: bs => do
    let d ← combine a b
    let ds ← zip? combine as bs
    return d :: ds
  | _, _ => none

theorem length_of_zip? {combine : Dimension → Dimension → Option Dimension}
    {as bs ds : List Dimension} (h : zip? combine as bs = some ds) :
    as.length = bs.length ∧ ds.length = as.length := by
  induction as generalizing bs ds with
  | nil => cases bs <;> simp_all [zip?]
  | cons a as ih =>
    cases bs with
    | nil => simp [zip?] at h
    | cons b bs =>
      simp only [zip?, Option.bind_eq_bind, Option.bind_eq_some_iff, Option.pure_def,
        Option.some.injEq] at h
      obtain ⟨d, _, ds', hds, rfl⟩ := h
      have := ih hds
      simp [this.1, this.2]

end Dimension

end TensorInference
