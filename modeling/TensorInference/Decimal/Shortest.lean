/-!
# The shortest decimal of a binary number

A positive number `mantissa * 2 ^ exponent` in double precision stands for every real number that
rounds to it.  These reals form an interval, whose ends belong to it when the mantissa is even.
`shortest` finds the coarsest decimal grid with a point in the interval, and of the two grid points
next to the number the nearer one that lies inside; at equal distance, the even one.

A coarser grid has no such point, so no decimal with fewer digits rounds to the number.

The interval is held in quarters of the last binary place: the number itself is `4 * mantissa` of
them and its upper end lies two further up.  The lower end lies two down as well, but only one when
the number below is half as far away, which is so where the exponent changes.
-/

namespace TensorInference.Decimal

/-- A positive binary number. -/
structure Binary where
  mantissa : Nat
  exponent : Int
  deriving DecidableEq, Repr

/-- The least mantissa of a normal double-precision number: its leading bit alone. -/
def leadingBit : Nat := 0x10000000000000

/-- The absolute value that the bits of a finite double-precision number stand for. -/
def Binary.ofBits (bits : UInt64) : Binary :=
  let fraction : Nat := bits.toNat % leadingBit
  let field : Nat := bits.toNat / leadingBit % 0x800
  if field = 0 then ⟨fraction, -1074⟩ else ⟨leadingBit + fraction, (field : Int) - 1075⟩

/-- Quarters of the last place from the number down to the end of its interval. -/
def Binary.below (b : Binary) : Nat :=
  if b.mantissa = leadingBit ∧ -1074 < b.exponent then 1 else 2

/-- A decimal number `digits * 10 ^ exponent`. -/
structure Scaled where
  digits : Nat
  exponent : Int
  deriving DecidableEq, Repr

/-- A decimal grid beside a binary number: the length of a quarter of the last binary place and the
length of a grid step, in a common measure. -/
structure Grid where
  quarter : Nat
  unit : Nat

/-- The grid of the multiples of `10 ^ exponent`, measured together with the quarters of `b`. -/
def Binary.grid (b : Binary) (exponent : Int) : Grid :=
  let place := b.exponent - 2
  ⟨Nat.pow 2 place.toNat * Nat.pow 10 (-exponent).toNat,
    Nat.pow 2 (-place).toNat * Nat.pow 10 exponent.toNat⟩

/-- Whether a grid point lies in the interval of `b`. -/
def Binary.covers (b : Binary) (grid : Grid) (point : Nat) : Bool :=
  let low := (4 * b.mantissa - b.below) * grid.quarter
  let high := (4 * b.mantissa + 2) * grid.quarter
  let position := point * grid.unit
  if b.mantissa % 2 = 0 then low ≤ position && position ≤ high
  else low < position && position < high

/-- The grid point in the interval of `b` that is nearest to it, if there is one. -/
def Binary.nearest? (b : Binary) (grid : Grid) : Option Nat :=
  let position := 4 * b.mantissa * grid.quarter
  let lower := position / grid.unit
  let gap := position % grid.unit
  match b.covers grid lower, b.covers grid (lower + 1) with
  | false, false => none
  | true, false => some lower
  | false, true => some (lower + 1)
  | true, true =>
    if 2 * gap < grid.unit then some lower
    else if grid.unit < 2 * gap then some (lower + 1)
    else some (if lower % 2 = 0 then lower else lower + 1)

/-- Looks for a point on grid after grid, from the exponent `tries - 350` downwards. -/
def Binary.search (b : Binary) : Nat → Scaled
  | 0 => ⟨0, 0⟩
  | tries + 1 =>
    let exponent : Int := (tries : Int) - 350
    match b.nearest? (b.grid exponent) with
    | some digits => ⟨digits, exponent⟩
    | none => b.search tries

/-- The shortest decimal that rounds to `b`.  The largest double-precision number is below
`10 ^ 309`, and the grid of `10 ^ (-341)` is finer than any interval. -/
def Binary.shortest (b : Binary) : Scaled :=
  b.search 660

end TensorInference.Decimal
