import TensorInference.Document.Number
import TensorInference.Document.Quotation

/-!
# Tokens of documents

A document is a text of tokens with white space between them.  `scan` splits a text into tokens as
far as that is possible and says whether it came to the end.  Reading is done on tokens from the
left, so a fault that is found in the first tokens is reported even if the text cannot be split
further right.

A token is the longest stretch that can be one: a number goes on as long as digits follow.
-/

namespace TensorInference.Document

/-- A token. -/
inductive Token where
  | null
  | boolean (value : Bool)
  | number (value : Number)
  | text (value : String)
  | openList
  | closeList
  | openMap
  | closeMap
  | comma
  | colon
  deriving Repr

namespace Token

/-- What follows a word at the front of a text. -/
def after? : List Char → List Char → Option (List Char)
  | [], chars => some chars
  | c :: word, d :: chars => if c = d then after? word chars else none
  | _ :: _, [] => none

theorem length_of_after? {word chars rest : List Char} (h : after? word chars = some rest) :
    rest.length ≤ chars.length := by
  induction word generalizing chars with
  | nil => simp_all [after?]
  | cons c word ih =>
    cases chars with
    | nil => simp [after?] at h
    | cons d chars =>
      unfold after? at h
      split at h
      · have := ih h
        simp only [List.length_cons]
        omega
      · simp at h

/-- White space between tokens. -/
def isSpace (c : Char) : Bool :=
  c == ' ' || c == '\n' || c == '\t' || c == '\r'

/-- The token that begins with a character that is not white space, and what follows it. -/
def split (c : Char) (rest : List Char) : Option (Token × List Char) :=
  match c with
  | '[' => some (openList, rest)
  | ']' => some (closeList, rest)
  | '\x7b' => some (openMap, rest)
  | '\x7d' => some (closeMap, rest)
  | ',' => some (comma, rest)
  | ':' => some (colon, rest)
  | 'n' => (after? ['u', 'l', 'l'] rest).map fun after => (null, after)
  | 't' => (after? ['r', 'u', 'e'] rest).map fun after => (boolean true, after)
  | 'f' => (after? ['a', 'l', 's', 'e'] rest).map fun after => (boolean false, after)
  | '"' => do
    let (body, after) ← Quotation.split rest
    let chars ← Quotation.unescape body
    return (text (String.ofList chars), after)
  | c => do
    let (numeral, after) ← Numeral.split (c :: rest)
    let value ← numeral.value?
    return (number value, after)

/-- A token takes at least its first character. -/
theorem length_of_split {c : Char} {rest after : List Char} {t : Token}
    (h : split c rest = some (t, after)) : after.length ≤ rest.length := by
  unfold split at h
  split at h
  case h_7 | h_8 | h_9 =>
    simp only [Option.map_eq_some_iff, Prod.mk.injEq] at h
    obtain ⟨_, h', _, rfl⟩ := h
    exact length_of_after? h'
  case h_10 =>
    simp only [Option.bind_eq_bind, Option.bind_eq_some_iff, Option.pure_def, Option.some.injEq,
      Prod.mk.injEq, Prod.exists] at h
    obtain ⟨_, _, h', _, _, _, rfl⟩ := h
    exact Nat.le_of_lt (Quotation.length_of_split h')
  case h_11 =>
    simp only [Option.bind_eq_bind, Option.bind_eq_some_iff, Option.pure_def, Option.some.injEq,
      Prod.mk.injEq, Prod.exists] at h
    obtain ⟨_, _, h', _, _, _, rfl⟩ := h
    have := Numeral.length_of_split h'
    simp only [List.length_cons] at this
    omega
  all_goals
    simp only [Option.some.injEq, Prod.mk.injEq] at h
    exact h.2 ▸ Nat.le_refl _

/-- The tokens of a text, as far as it splits into tokens, and whether all of it does. -/
def scan (chars : List Char) : List Token × Bool :=
  match chars with
  | [] => ([], true)
  | c :: rest =>
    if isSpace c then scan rest
    else
      match h : split c rest with
      | none => ([], false)
      | some (t, after) =>
        have := length_of_split h
        let (tokens, complete) := scan after
        (t :: tokens, complete)
termination_by chars.length
decreasing_by
  all_goals simp only [List.length_cons]
  all_goals omega

end Token

end TensorInference.Document
