/-!
# Texts in documents

A text stands between double quotes.  Between them a backslash begins an escape, and characters
below the space do not stand as they are.  An escape by number gives a unit of sixteen bits: one
unit is a character, or two units are, the first a high and the second a low surrogate.

`split` takes a text from behind its opening quote up to its closing quote, and `unescape` finds
what it means.  `escaped` writes a text so that it can stand between quotes.
-/

namespace TensorInference.Document.Quotation

/-- The characters up to the closing quote, escapes not yet read, and what follows the quote. -/
def split : List Char → Option (List Char × List Char)
  | [] => none
  | '"' :: rest => some ([], rest)
  | '\\' :: c :: rest => (split rest).map fun (body, after) => ('\\' :: c :: body, after)
  | c :: rest => (split rest).map fun (body, after) => (c :: body, after)

theorem length_of_split {text body after : List Char} (h : split text = some (body, after)) :
    after.length < text.length := by
  fun_induction split text generalizing body after with
  | case1 => simp at h
  | case2 rest =>
    simp only [Option.some.injEq, Prod.mk.injEq] at h
    obtain ⟨_, rfl⟩ := h
    simp
  | case3 c rest ih =>
    simp only [Option.map_eq_some_iff, Prod.mk.injEq, Prod.exists] at h
    obtain ⟨body', after', h', _, rfl⟩ := h
    have := ih h'
    simp only [List.length_cons]
    omega
  | case4 c rest _ _ ih =>
    simp only [Option.map_eq_some_iff, Prod.mk.injEq, Prod.exists] at h
    obtain ⟨body', after', h', _, rfl⟩ := h
    have := ih h'
    simp only [List.length_cons]
    omega

/-- A part of a text: a character, or a unit given by its number. -/
inductive Piece where
  | char (c : Char)
  | unit (value : Nat)
  deriving DecidableEq, Repr

/-- The value of a hexadecimal digit, capital or small. -/
def hexValue? (c : Char) : Option Nat :=
  if c.isDigit then some (c.toNat - '0'.toNat)
  else if 'a' ≤ c ∧ c ≤ 'f' then some (c.toNat - 'a'.toNat + 10)
  else if 'A' ≤ c ∧ c ≤ 'F' then some (c.toNat - 'A'.toNat + 10)
  else none

/-- The value of hexadecimal digits, the leftmost first. -/
def hex? (digits : List Char) : Option Nat :=
  digits.foldlM (fun n c => (hexValue? c).map fun d => 16 * n + d) 0

/-- What a letter stands for behind a backslash. -/
def letter? : Char → Option Char
  | '"' => some '"'
  | '\\' => some '\\'
  | '/' => some '/'
  | 'b' => some '\x08'
  | 'f' => some '\x0c'
  | 'n' => some '\n'
  | 'r' => some '\r'
  | 't' => some '\t'
  | _ => none

/-- The pieces of a text. -/
def pieces? : List Char → Option (List Piece)
  | [] => some []
  | '\\' :: 'u' :: a :: b :: c :: d :: rest => do
    let value ← hex? [a, b, c, d]
    return .unit value :: (← pieces? rest)
  | '\\' :: c :: rest => do
    let c ← letter? c
    return .char c :: (← pieces? rest)
  | c :: rest =>
    if c.toNat < 0x20 ∨ c = '\\' then none
    else do return .char c :: (← pieces? rest)

/-- A unit that stands for the first half of a character. -/
def isHigh (unit : Nat) : Bool :=
  0xD800 ≤ unit && unit < 0xDC00

/-- A unit that stands for the second half of a character. -/
def isLow (unit : Nat) : Bool :=
  0xDC00 ≤ unit && unit < 0xE000

/-- The characters that pieces stand for.  A half of a character must have its other half. -/
def join? : List Piece → Option (List Char)
  | [] => some []
  | .unit high :: .unit low :: rest =>
    if isHigh high then
      if isLow low then do
        let c := Char.ofNat (0x10000 + (high - 0xD800) * 0x400 + (low - 0xDC00))
        return c :: (← join? rest)
      else none
    else if isLow high then none
    else do return Char.ofNat high :: (← join? (.unit low :: rest))
  | .unit unit :: rest =>
    if isHigh unit || isLow unit then none
    else do return Char.ofNat unit :: (← join? rest)
  | .char c :: rest => do return c :: (← join? rest)

/-- The meaning of the characters between two quotes. -/
def unescape (body : List Char) : Option (List Char) :=
  (pieces? body).bind join?

/-- Four hexadecimal digits of a number. -/
def fourDigits (n : Nat) : List Char :=
  [Nat.digitChar (n / 4096 % 16), Nat.digitChar (n / 256 % 16), Nat.digitChar (n / 16 % 16),
    Nat.digitChar (n % 16)]

/-- The letter that stands for a character behind a backslash, if there is one. -/
def letterFor? : Char → Option Char
  | '"' => some '"'
  | '\\' => some '\\'
  | '\x08' => some 'b'
  | '\x0c' => some 'f'
  | '\n' => some 'n'
  | '\r' => some 'r'
  | '\t' => some 't'
  | _ => none

/-- What stands between quotes for a character: its letter behind a backslash, or its number if it is
below the space and has no letter. -/
def escaped (c : Char) : List Char :=
  match letterFor? c with
  | some letter => ['\\', letter]
  | none => if c.toNat < 0x20 then '\\' :: 'u' :: fourDigits c.toNat else [c]

end TensorInference.Document.Quotation
