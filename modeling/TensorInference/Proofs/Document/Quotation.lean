import TensorInference.Document.Quotation

/-!
# Texts, quoted and read again

A text is written between quotes character by character, and it is read again in three passes: up to
the closing quote, into pieces, and from pieces into characters.  What one character is written as
passes through each of them by itself, whatever comes after it, because an escape begins with a
backslash and nothing else does, and because a unit written for one of the characters below the
space is no half of another character.

* `split_escaped` --- a written text reaches up to its own closing quote.
* `unescape_escaped` --- it means the text that was written.
-/

namespace TensorInference.Document.Quotation

/-! ## Three sorts of characters -/

/-- A character that is neither a quote nor a backslash. -/
def IsPlain (c : Char) : Prop :=
  c ≠ '"' ∧ c ≠ '\\'

instance (c : Char) : Decidable (IsPlain c) :=
  inferInstanceAs (Decidable (_ ∧ _))

/-- The letter for a character is read as that character, and not as the beginning of a number. -/
theorem letter?_of_letterFor? {c letter : Char} (h : letterFor? c = some letter) :
    letter? letter = some c ∧ letter ≠ 'u' := by
  unfold letterFor? at h
  split at h
  all_goals cases h
  all_goals decide

/-- Quotes and backslashes have letters. -/
theorem isPlain_of_letterFor? {c : Char} (h : letterFor? c = none) : IsPlain c := by
  constructor
  all_goals
    rintro rfl
    exact absurd h (by decide)

theorem escaped_of_letter {c letter : Char} (h : letterFor? c = some letter) :
    escaped c = ['\\', letter] := by
  rw [escaped, h]

theorem escaped_of_lt {c : Char} (h : letterFor? c = none) (hlow : c.toNat < 0x20) :
    escaped c = '\\' :: 'u' :: fourDigits c.toNat := by
  simp only [escaped, h, if_pos hlow]

theorem escaped_of_not_lt {c : Char} (h : letterFor? c = none) (hlow : ¬c.toNat < 0x20) :
    escaped c = [c] := by
  simp only [escaped, h, if_neg hlow]

/-! ## Up to the closing quote -/

theorem split_append_of_isPlain {front : List Char} (h : ∀ c ∈ front, IsPlain c)
    (text : List Char) :
    split (front ++ text) = (split text).map fun (body, after) => (front ++ body, after) := by
  induction front with
  | nil => simp
  | cons c front ih =>
    obtain ⟨⟨hquote, hbackslash⟩, hfront⟩ := List.forall_mem_cons.1 h
    have hstep : split (c :: (front ++ text)) =
        (split (front ++ text)).map fun (body, after) => (c :: body, after) := by
      rw [split]
      · exact hquote
      · exact fun _ _ hc => absurd hc hbackslash
    rw [List.cons_append, hstep, ih hfront, Option.map_map]
    rfl

theorem isPlain_of_mem_fourDigits {n : Nat} {c : Char} (h : c ∈ fourDigits n) : IsPlain c := by
  have hdigit : ∀ d < 16, IsPlain (Nat.digitChar d) := by decide
  simp only [fourDigits, List.mem_cons, List.not_mem_nil, or_false] at h
  rcases h with rfl | rfl | rfl | rfl
  all_goals exact hdigit _ (Nat.mod_lt _ (by decide))

/-- What a character is written as is read over as a whole. -/
theorem split_escaped_append (c : Char) (text : List Char) :
    split (escaped c ++ text) =
      (split text).map fun (body, after) => (escaped c ++ body, after) := by
  cases hletter : letterFor? c with
  | some letter =>
    rw [escaped_of_letter hletter]
    rfl
  | none =>
    by_cases hlow : c.toNat < 0x20
    · have hdigits : ∀ d ∈ fourDigits c.toNat, IsPlain d := fun d => isPlain_of_mem_fourDigits
      rw [escaped_of_lt hletter hlow, List.cons_append, List.cons_append, split,
        split_append_of_isPlain hdigits, Option.map_map]
      rfl
    · rw [escaped_of_not_lt hletter hlow]
      exact split_append_of_isPlain (List.forall_mem_singleton.2 (isPlain_of_letterFor? hletter)) text

/-- A written text reaches up to its own closing quote. -/
theorem split_escaped (chars rest : List Char) :
    split (chars.flatMap escaped ++ '"' :: rest) = some (chars.flatMap escaped, rest) := by
  induction chars with
  | nil => rfl
  | cons c chars ih =>
    rw [List.flatMap_cons, List.append_assoc, split_escaped_append, ih]
    rfl

/-! ## What it means -/

theorem hexValue?_digitChar : ∀ d < 16, hexValue? (Nat.digitChar d) = some d := by
  decide

theorem hex?_fourDigits {n : Nat} (h : n < 0x10000) : hex? (fourDigits n) = some n := by
  have hdigit (k : Nat) : hexValue? (Nat.digitChar (k % 16)) = some (k % 16) :=
    hexValue?_digitChar _ (Nat.mod_lt _ (by decide))
  simp only [hex?, fourDigits, List.foldlM_cons, List.foldlM_nil, hdigit, Option.map_some,
    Option.bind_eq_bind, Option.bind_some, Option.pure_def, Option.some.injEq]
  omega

/-- The piece as which a character is read again: characters below the space are written by their
numbers, unless they have letters. -/
def pieceOf (c : Char) : Piece :=
  if letterFor? c = none ∧ c.toNat < 0x20 then .unit c.toNat else .char c

theorem pieces?_escaped_append (c : Char) (text : List Char) :
    pieces? (escaped c ++ text) = (pieces? text).map (pieceOf c :: ·) := by
  cases hletter : letterFor? c with
  | some letter =>
    obtain ⟨hmeans, hnumber⟩ := letter?_of_letterFor? hletter
    rw [escaped_of_letter hletter, pieceOf, if_neg (by simp [hletter]), List.cons_append,
      List.singleton_append, pieces?]
    · rw [hmeans]
      cases pieces? text with
      | none => rfl
      | some pieces => rfl
    · exact fun _ _ _ _ _ hc => absurd hc hnumber
  | none =>
    by_cases hlow : c.toNat < 0x20
    · have hhex : hex? (fourDigits c.toNat) = some c.toNat := hex?_fourDigits (by omega)
      rw [escaped_of_lt hletter hlow, pieceOf, if_pos ⟨hletter, hlow⟩]
      simp only [fourDigits] at hhex ⊢
      simp only [List.cons_append, List.nil_append, pieces?, hhex, Option.bind_eq_bind,
        Option.bind_some, Option.pure_def]
      cases pieces? text with
      | none => rfl
      | some pieces => rfl
    · have hplain := isPlain_of_letterFor? hletter
      rw [escaped_of_not_lt hletter hlow, pieceOf, if_neg fun h => hlow h.2,
        List.singleton_append, pieces?]
      · rw [if_neg (not_or.2 ⟨hlow, hplain.2⟩)]
        cases pieces? text with
        | none => rfl
        | some pieces => rfl
      · exact fun _ _ _ _ _ hc => absurd hc hplain.2
      · exact fun _ _ hc => absurd hc hplain.2

theorem pieces?_escaped (chars : List Char) :
    pieces? (chars.flatMap escaped) = some (chars.map pieceOf) := by
  induction chars with
  | nil => rfl
  | cons c chars ih =>
    rw [List.flatMap_cons, pieces?_escaped_append, ih]
    rfl

theorem isHigh_of_lt {n : Nat} (h : n < 0x20) : isHigh n = false := by
  have : ¬0xD800 ≤ n := by omega
  simp [isHigh, this]

theorem isLow_of_lt {n : Nat} (h : n < 0x20) : isLow n = false := by
  have : ¬0xDC00 ≤ n := by omega
  simp [isLow, this]

/-- A unit below the space stands for its character, unless the second half of another one
follows. -/
theorem join?_unit_cons {n : Nat} (hn : n < 0x20) {pieces : List Piece}
    (hnext : ∀ m, .unit m ∈ pieces.head? → isLow m = false) :
    join? (.unit n :: pieces) = (join? pieces).map (Char.ofNat n :: ·) := by
  have hhalf : isHigh n = false ∧ isLow n = false := ⟨isHigh_of_lt hn, isLow_of_lt hn⟩
  cases pieces with
  | nil => simp [join?, hhalf]
  | cons piece pieces =>
    cases piece with
    | char c =>
      rw [join?]
      · simp only [hhalf, Bool.or_self, Bool.false_eq_true, if_false]
        cases join? (.char c :: pieces) with
        | none => rfl
        | some rest => rfl
      · exact nofun
    | unit m =>
      rw [join?]
      simp only [hhalf, hnext m rfl, Bool.false_eq_true, if_false]
      cases join? (.unit m :: pieces) with
      | none => rfl
      | some rest => rfl

theorem lt_of_unit_mem {chars : List Char} {m : Nat} (h : .unit m ∈ chars.map pieceOf) :
    m < 0x20 := by
  obtain ⟨c, -, hc⟩ := List.mem_map.1 h
  unfold pieceOf at hc
  split at hc
  · next hlow =>
    cases hc
    exact hlow.2
  · cases hc

theorem join?_pieceOf (chars : List Char) : join? (chars.map pieceOf) = some chars := by
  induction chars with
  | nil => rfl
  | cons c chars ih =>
    by_cases hunit : letterFor? c = none ∧ c.toNat < 0x20
    · have hpiece : pieceOf c = .unit c.toNat := if_pos hunit
      have hnext (m : Nat) (hm : .unit m ∈ (chars.map pieceOf).head?) : isLow m = false :=
        isLow_of_lt (lt_of_unit_mem (List.mem_of_mem_head? hm))
      rw [List.map_cons, hpiece, join?_unit_cons hunit.2 hnext, ih, Char.ofNat_toNat]
      rfl
    · have hpiece : pieceOf c = .char c := if_neg hunit
      rw [List.map_cons, hpiece, join?, ih]
      rfl

/-- A written text means the text that was written. -/
theorem unescape_escaped (chars : List Char) :
    unescape (chars.flatMap escaped) = some chars := by
  rw [unescape, pieces?_escaped]
  exact join?_pieceOf chars

/-- A tab has a letter, the character with the number one has none. -/
example : ['\t', '\x01'].flatMap escaped = ['\\', 't', '\\', 'u', '0', '0', '0', '1'] := by
  decide

end TensorInference.Document.Quotation
