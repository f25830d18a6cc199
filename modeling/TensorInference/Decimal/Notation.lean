import TensorInference.Decimal.Shortest

/-!
# Writing floating-point numbers

A number is written with the fewest digits that round to it.  `Form` says for which decimal
exponents of the leading digit the digits are placed around a point; all other numbers are written
with one digit before the point and an exponent, and `Form` says whether that exponent has a sign
when it is positive.
-/

namespace TensorInference.Decimal

/-- How numbers are written. -/
structure Form where
  /-- The least leading exponent that is written without an exponent. -/
  least : Int
  /-- The greatest leading exponent that is written without an exponent. -/
  greatest : Int
  /-- Whether a positive exponent is written with its sign. -/
  signed : Bool
  deriving DecidableEq, Repr

/-- A number of zeros. -/
def zeros (count : Int) : List Char :=
  List.replicate count.toNat '0'

/-- The digits around a point, with a zero after it for whole numbers. -/
def positional (digits : List Char) (exponent : Int) : List Char :=
  let whole : Int := digits.length + exponent
  if 0 ≤ exponent then digits ++ zeros exponent ++ ['.', '0']
  else if 0 < whole then digits.take whole.toNat ++ '.' :: digits.drop whole.toNat
  else '0' :: '.' :: zeros (-whole) ++ digits

/-- An exponent after its mark. -/
def Form.exponent (form : Form) (leading : Int) : List Char :=
  let sign := if form.signed && 0 < leading then ['+'] else []
  'e' :: sign ++ (toString leading).toList

/-- One digit and the others after a point. -/
def pointed : List Char → List Char
  | [] => []
  | [digit] => [digit]
  | digit :: digits => digit :: '.' :: digits

/-- A positive decimal in a given form. -/
def Form.write (form : Form) (d : Scaled) : List Char :=
  let digits := (toString d.digits).toList
  let leading := d.exponent + digits.length - 1
  if form.least ≤ leading ∧ leading ≤ form.greatest then positional digits d.exponent
  else pointed digits ++ form.exponent leading

/-- A finite floating-point number in a given form.  Zeros keep their sign. -/
def Form.text (form : Form) (x : Float) : String :=
  let bits := x.toBits
  let sign := if bits.toNat < 0x8000000000000000 then [] else ['-']
  let b := Binary.ofBits bits
  String.ofList (sign ++ if b.mantissa = 0 then ['0', '.', '0'] else form.write b.shortest)

end TensorInference.Decimal
