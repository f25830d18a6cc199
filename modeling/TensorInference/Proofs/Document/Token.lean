import Mathlib.Data.List.Chain
import TensorInference.Document.Text
import TensorInference.Proofs.Document.Number
import TensorInference.Proofs.Document.Quotation

/-!
# Tokens, written and read again

A token that is written exactly comes back when its text is split, and so do tokens written one
after the other.  Two things can get in the way.  A token can have no text that says all of it: real
numbers are not written exactly, and an integer is read as one only while it fits a word.  And a
number goes on as long as digits follow, so that two numbers must not touch each other; next to all
other tokens a number ends by itself.

* `Token.scan_write_append` --- one token at the front of a text.
* `Legible` --- what has to be so for many tokens.
* `Legible.scan_write` --- a text of tokens.
-/

namespace TensorInference.Document

namespace Token

/-- The text of the token says all of it. -/
def IsExact : Token → Prop
  | number (.integer n) => Numeral.Fits n
  | number (.real _) => False
  | _ => True

instance : DecidablePred IsExact
  | number (.integer n) => inferInstanceAs (Decidable (Numeral.Fits n))
  | number (.real _) => isFalse id
  | null | boolean _ | text _ | openList | closeList | openMap | closeMap | comma | colon =>
    isTrue trivial

def IsNumber : Token → Prop
  | number _ => True
  | _ => False

/-- Two tokens that can stand side by side. -/
def Apart (t u : Token) : Prop :=
  t.IsNumber → ¬u.IsNumber

/-! ## One token -/

/-- A token that is split off is the first one, and the others are those of the rest. -/
theorem scan_of_split {c : Char} {rest after : List Char} {t : Token} (hspace : isSpace c = false)
    (hsplit : split c rest = some (t, after)) :
    scan (c :: rest) = (t :: (scan after).1, (scan after).2) := by
  rw [scan, hspace]
  simp only [Bool.false_eq_true, if_false]
  split
  · next h =>
    rw [hsplit] at h
    cases h
  · next h =>
    rw [hsplit] at h
    cases h
    rfl

/-- What begins as an integer and has a value is a number. -/
theorem split_eq_number {c : Char} (hc : Numeral.Begins c) {rest after : List Char}
    {numeral : Numeral} {value : Number}
    (hsplit : Numeral.split (c :: rest) = some (numeral, after))
    (hvalue : numeral.value? = some value) : split c rest = some (number value, after) := by
  unfold split
  split
  case h_11 =>
    simp only [hsplit, hvalue, Option.bind_eq_bind, Option.bind_some, Option.pure_def]
  all_goals exact absurd hc (by decide)

theorem isSpace_eq_false {c : Char} (hc : Numeral.Begins c) : isSpace c = false := by
  have hmark : c ≠ ' ' ∧ c ≠ '\n' ∧ c ≠ '\t' ∧ c ≠ '\r' := by
    refine ⟨?_, ?_, ?_, ?_⟩
    all_goals
      rintro rfl
      exact absurd hc (by decide)
  simp [isSpace, hmark]

/-- A token at the front of a text is split off, if it is written exactly and, being a number, ends
there. -/
theorem scan_write_append {t : Token} (ht : t.IsExact) {text : List Char}
    (hends : t.IsNumber → Numeral.Ends text) :
    scan (t.write ++ text) = (t :: (scan text).1, (scan text).2) := by
  cases t with
  | boolean value =>
    cases value with
    | false => exact scan_of_split rfl rfl
    | true => exact scan_of_split rfl rfl
  | number value =>
    cases value with
    | real value => exact ht.elim
    | integer n =>
      obtain ⟨c, chars, hwrite, hc⟩ := Numeral.exists_toString_eq_cons n
      have hsplit : Numeral.split (c :: (chars ++ text)) = some (Numeral.ofInt n, text) := by
        rw [← List.cons_append, ← hwrite]
        exact Numeral.split_toString n (hends trivial)
      have hnumber := split_eq_number hc hsplit (Numeral.value?_ofInt ht)
      rw [write, hwrite, List.cons_append]
      exact scan_of_split (isSpace_eq_false hc) hnumber
  | text value =>
    have hwrite : (Token.text value).write ++ text =
        '"' :: (value.toList.flatMap Quotation.escaped ++ '"' :: text) := by
      rw [write, List.cons_append, List.cons_append, List.append_assoc, List.singleton_append]
    rw [hwrite]
    refine scan_of_split rfl ?_
    simp only [split, Quotation.split_escaped, Quotation.unescape_escaped, Option.bind_eq_bind,
      Option.bind_some, Option.pure_def, String.ofList_toList]
  | _ => exact scan_of_split rfl rfl

/-! ## Many tokens -/

/-- A number ends before anything that is no number. -/
theorem ends_write_append {t : Token} (ht : ¬t.IsNumber) (text : List Char) :
    Numeral.Ends (t.write ++ text) := by
  cases t with
  | number value => exact absurd trivial ht
  | boolean value =>
    cases value with
    | false => exact Numeral.ends_cons.2 (by decide)
    | true => exact Numeral.ends_cons.2 (by decide)
  | _ => exact Numeral.ends_cons.2 (by decide)

end Token

/-- The tokens can be told from their text: each of them is written exactly, and no two of them are
numbers that touch. -/
structure Legible (tokens : List Token) : Prop where
  isExact : ∀ t ∈ tokens, t.IsExact
  apart : tokens.IsChain Token.Apart

namespace Legible

variable {t : Token} {tokens tokens' : List Token}

/-- Legible tokens are what their text splits into. -/
theorem scan_write (h : Legible tokens) :
    Token.scan (tokens.flatMap Token.write) = (tokens, true) := by
  induction tokens with
  | nil => rw [List.flatMap_nil, Token.scan]
  | cons t tokens ih =>
    obtain ⟨ht, htokens⟩ := List.forall_mem_cons.1 h.isExact
    obtain ⟨hnext, hrest⟩ := List.isChain_cons.1 h.apart
    -- A number ends here, since what follows is the end of the text or a token that is no number.
    have hends : t.IsNumber → Numeral.Ends (tokens.flatMap Token.write) := by
      intro hnumber
      cases tokens with
      | nil => exact Numeral.ends_nil
      | cons u tokens => exact Token.ends_write_append (hnext u rfl hnumber) _
    rw [List.flatMap_cons, Token.scan_write_append ht hends, ih ⟨htokens, hrest⟩]

theorem singleton (ht : t.IsExact) : Legible [t] :=
  ⟨List.forall_mem_singleton.2 ht, List.isChain_singleton t⟩

/-- Anything can follow a token that is no number. -/
theorem cons (ht : t.IsExact) (hnumber : ¬t.IsNumber) (h : Legible tokens) :
    Legible (t :: tokens) :=
  ⟨List.forall_mem_cons.2 ⟨ht, h.isExact⟩,
    List.isChain_cons.2 ⟨fun _ _ hnumber' => absurd hnumber' hnumber, h.apart⟩⟩

/-- A token that is no number can follow anything. -/
theorem append (h : Legible tokens) (h' : Legible (t :: tokens')) (hnumber : ¬t.IsNumber) :
    Legible (tokens ++ t :: tokens') := by
  refine ⟨List.forall_mem_append.2 ⟨h.isExact, h'.isExact⟩, ?_⟩
  refine List.isChain_append.2 ⟨h.apart, h'.apart, fun _ _ u hu _ => ?_⟩
  rwa [← Option.some.inj hu]

end Legible

/-- The values of a list are kept apart by commas. -/
theorem legible_cons_writeMore {t : Token} {tokens : List Token} (ht : t.IsExact)
    (h : ∀ u ∈ tokens, u.IsExact) : Legible (t :: writeMore tokens) := by
  induction tokens generalizing t with
  | nil => exact (Legible.singleton ht).append (.singleton trivial) nofun
  | cons u tokens ih =>
    obtain ⟨hu, htokens⟩ := List.forall_mem_cons.1 h
    exact (Legible.singleton ht).append (.cons trivial nofun (ih hu htokens)) nofun

theorem legible_writeList {tokens : List Token} (h : ∀ t ∈ tokens, t.IsExact) :
    Legible (writeList tokens) := by
  cases tokens with
  | nil => exact .cons trivial nofun (.singleton trivial)
  | cons t tokens =>
    obtain ⟨ht, htokens⟩ := List.forall_mem_cons.1 h
    exact .cons trivial nofun (legible_cons_writeMore ht htokens)

end TensorInference.Document
