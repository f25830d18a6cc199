import TensorInference.Proofs.Document.Number
import TensorInference.Text.Listing

/-!
# Reading messages again

Messages have words in them that stand for values, such as numbers and names.  No word has a blank, a
comma or a closing bracket in it, and one of these stands behind each word that the message goes on
after.  A word is therefore found again in the message, up to the break behind it, and so is the value
if different values are different words.

The same is true of a list of words between braces, whatever its length, since a word is never empty
and the list goes on after a comma only.

* `Readable` --- in front of a break, the value and where it ends can be told from the text.
* `Spells.readable` --- words are readable.
* `Spells.readable_braced` --- so are lists of words between braces.
* `Readable.sentence_inj` --- a sentence about two values determines them.
-/

namespace TensorInference.Text

/-! ## Words and breaks -/

/-- What stands behind a word in a message. -/
def breaks : List Char := [' ', ',', ')', '\x7d']

/-- A text without breaks, and not empty. -/
def IsWord (word : List Char) : Prop :=
  word ≠ [] ∧ ∀ c ∈ word, c ∉ breaks

-- Decided by a walk along the word, not by trying all characters there are.
instance (word : List Char) : Decidable (IsWord word) :=
  @instDecidableAnd _ _ inferInstance (List.decidableBAll _ word)

/-- A text that begins with a break, or is empty. -/
def Breaks : List Char → Prop
  | [] => True
  | c :: _ => c ∈ breaks

instance : DecidablePred Breaks
  | [] => isTrue trivial
  | c :: _ => inferInstanceAs (Decidable (c ∈ breaks))

theorem breaks_nil : Breaks [] := trivial

theorem breaks_append {front : List Char} (hfront : front ≠ [] ∧ Breaks front) (rest : List Char) :
    Breaks (front ++ rest) := by
  cases front with
  | nil => exact absurd rfl hfront.1
  | cons c front => exact hfront.2

theorem takeWhile_append {word rest : List Char} (hword : IsWord word) (hrest : Breaks rest) :
    (word ++ rest).takeWhile (· ∉ breaks) = word := by
  rw [List.takeWhile_append_of_pos fun c hc => decide_eq_true (hword.2 c hc)]
  cases rest with
  | nil => rw [List.takeWhile_nil, List.append_nil]
  | cons c rest =>
    have hc : c ∈ breaks := hrest
    rw [List.takeWhile_cons_of_neg (by simpa using hc), List.append_nil]

/-- A text has one word at most up to its first break. -/
theorem append_inj_of_isWord {word word' rest rest' : List Char} (hword : IsWord word)
    (hword' : IsWord word') (hrest : Breaks rest) (hrest' : Breaks rest')
    (h : word ++ rest = word' ++ rest') : word = word' ∧ rest = rest' := by
  have hsame : word = word' := by
    rw [← takeWhile_append hword hrest, h, takeWhile_append hword' hrest']
  subst hsame
  exact ⟨rfl, List.append_cancel_left h⟩

/-! ## Values in messages -/

variable {α β : Type} {write : α → String} {write' : β → String}

/-- In front of a break, the text of a value ends in one place only and is the text of no other
value. -/
def Readable (write : α → String) : Prop :=
  ∀ ⦃a b : α⦄ ⦃rest rest' : List Char⦄, Breaks rest → Breaks rest' →
    (write a).toList ++ rest = (write b).toList ++ rest' → a = b ∧ rest = rest'

theorem Readable.injective (h : Readable write) : write.Injective := by
  intro a b hab
  exact (h breaks_nil breaks_nil (by rw [hab])).1

/-- A sentence about two values determines them, if a break stands behind each of them. -/
theorem Readable.sentence_inj (h : Readable write) (h' : Readable write')
    {front middle back : String} (hmiddle : middle.toList ≠ [] ∧ Breaks middle.toList)
    (hback : Breaks back.toList) {a a' : α} {b b' : β} :
    front ++ write a ++ middle ++ write' b ++ back =
        front ++ write a' ++ middle ++ write' b' ++ back ↔ a = a' ∧ b = b' := by
  constructor
  · intro heq
    have htext := congrArg String.toList heq
    simp only [String.toList_append, List.append_assoc] at htext
    obtain ⟨ha, hrest⟩ := h (breaks_append hmiddle _) (breaks_append hmiddle _)
      (List.append_cancel_left htext)
    obtain ⟨hb, -⟩ := h' hback hback (List.append_cancel_left hrest)
    exact ⟨ha, hb⟩
  · rintro ⟨rfl, rfl⟩
    rfl

/-- The same where the sentence ends with the second value. -/
theorem Readable.clause_inj (h : Readable write) (h' : Readable write') {front middle : String}
    (hmiddle : middle.toList ≠ [] ∧ Breaks middle.toList) {a a' : α} {b b' : β} :
    front ++ write a ++ middle ++ write' b = front ++ write a' ++ middle ++ write' b' ↔
      a = a' ∧ b = b' := by
  rw [← h.sentence_inj h' hmiddle (show Breaks "".toList from breaks_nil), String.append_empty,
    String.append_empty]

/-- The same where the sentence begins with the first value and says something of it. -/
theorem Readable.remark_inj (h : Readable write) (h' : Readable write') {remark : α → String}
    {middle last : String} (hmiddle : middle.toList ≠ [] ∧ Breaks middle.toList)
    {a a' : α} {b b' : β} :
    write a ++ middle ++ remark a ++ last ++ write' b =
        write a' ++ middle ++ remark a' ++ last ++ write' b' ↔ a = a' ∧ b = b' := by
  constructor
  · intro heq
    have htext := congrArg String.toList heq
    simp only [String.toList_append, List.append_assoc] at htext
    obtain ⟨rfl, -⟩ := h (breaks_append hmiddle _) (breaks_append hmiddle _) htext
    exact ⟨rfl, h'.injective ((String.append_right_inj _).1 heq)⟩
  · rintro ⟨rfl, rfl⟩
    rfl

/-- Values are written as words, and different values as different words. -/
structure Spells (write : α → String) : Prop where
  isWord : ∀ a, IsWord (write a).toList
  injective : write.Injective

namespace Spells

/-- Words are readable. -/
theorem readable (h : Spells write) : Readable write := by
  intro a b rest rest' hrest hrest' heq
  obtain ⟨hword, hsame⟩ := append_inj_of_isWord (h.isWord a) (h.isWord b) hrest hrest' heq
  exact ⟨h.injective (String.toList_inj.1 hword), hsame⟩

end Spells

/-! ## Lists of words -/

/-- What stands behind the first item of a list, up to the closing brace. -/
def further : List String → List Char
  | [] => ['\x7d']
  | item :: items => ',' :: ' ' :: (item.toList ++ further items)

theorem breaks_further (items : List String) (rest : List Char) : Breaks (further items ++ rest) := by
  cases items with
  | nil => exact breaks_append (by decide) rest
  | cons item items => exact show ',' ∈ breaks by decide

theorem toList_braced_nil : (braced []).toList = ['\x7b', '\x7d'] := by
  decide

theorem toList_braced_cons (item : String) (items : List String) :
    (braced (item :: items)).toList = '\x7b' :: (item.toList ++ further items) := by
  have hitems : (commaSeparated (item :: items)).toList ++ ['\x7d'] =
      item.toList ++ further items := by
    induction items generalizing item with
    | nil => rw [commaSeparated, String.intercalate_singleton, further]
    | cons next items ih =>
      calc (commaSeparated (item :: next :: items)).toList ++ ['\x7d']
          = item.toList ++ [',', ' '] ++ ((commaSeparated (next :: items)).toList ++ ['\x7d']) := by
            simp only [commaSeparated, String.intercalate_cons_cons, String.toList_append,
              List.append_assoc]
            rfl
        _ = item.toList ++ further (next :: items) := by
            rw [ih, List.append_assoc]
            rfl
  calc (braced (item :: items)).toList
      = ['\x7b'] ++ ((commaSeparated (item :: items)).toList ++ ['\x7d']) := by
        simp only [braced, String.toList_append, List.append_assoc]
        rfl
    _ = '\x7b' :: (item.toList ++ further items) := by rw [hitems, List.singleton_append]

namespace Spells

theorem further_inj (h : Spells write) {items items' : List α} {rest rest' : List Char}
    (heq : further (items.map write) ++ rest = further (items'.map write) ++ rest') :
    items = items' ∧ rest = rest' := by
  induction items generalizing items' with
  | nil =>
    cases items' with
    | nil => exact ⟨rfl, (List.cons.inj heq).2⟩
    | cons item' items' => exact absurd (List.cons.inj heq).1 (by decide)
  | cons item items ih =>
    cases items' with
    | nil => exact absurd (List.cons.inj heq).1 (by decide)
    | cons item' items' =>
      simp only [List.map_cons, further, List.cons_append, List.append_assoc, List.cons.injEq,
        true_and] at heq
      obtain ⟨rfl, hlater⟩ := h.readable (breaks_further _ _) (breaks_further _ _) heq
      obtain ⟨rfl, hrest⟩ := ih hlater
      exact ⟨rfl, hrest⟩

/-- The empty list is the only one that is closed where a word would begin. -/
theorem braced_nil_append_ne (h : Spells write) (a : α) (items : List String)
    (rest rest' : List Char) :
    (braced []).toList ++ rest ≠ (braced (write a :: items)).toList ++ rest' := by
  intro heq
  obtain ⟨hne, hbreaks⟩ := h.isWord a
  obtain ⟨c, word, hword⟩ := List.exists_cons_of_ne_nil hne
  rw [toList_braced_nil, toList_braced_cons, hword] at heq
  have hclosed : '\x7d' = c := (List.cons.inj (List.cons.inj heq).2).1
  refine hbreaks c (hword ▸ List.mem_cons_self) ?_
  rw [← hclosed]
  decide

/-- The text of a list determines the list, and where the text ends. -/
theorem braced_inj (h : Spells write) {items items' : List α} {rest rest' : List Char}
    (heq : (braced (items.map write)).toList ++ rest =
      (braced (items'.map write)).toList ++ rest') : items = items' ∧ rest = rest' := by
  cases items with
  | nil =>
    cases items' with
    | nil => exact ⟨rfl, List.append_cancel_left heq⟩
    | cons item' items' => exact absurd heq (h.braced_nil_append_ne item' _ _ _)
  | cons item items =>
    cases items' with
    | nil => exact absurd heq.symm (h.braced_nil_append_ne item _ _ _)
    | cons item' items' =>
      rw [List.map_cons, List.map_cons, toList_braced_cons, toList_braced_cons] at heq
      simp only [List.cons_append, List.append_assoc, List.cons.injEq, true_and] at heq
      obtain ⟨rfl, hlater⟩ := h.readable (breaks_further _ _) (breaks_further _ _) heq
      obtain ⟨rfl, hrest⟩ := h.further_inj hlater
      exact ⟨rfl, hrest⟩

theorem readable_braced (h : Spells write) :
    Readable fun items : List α => braced (items.map write) :=
  fun _ _ _ _ _ _ heq => h.braced_inj heq

end Spells

/-! ## Numbers -/

open Document Numeral

theorem notMem_breaks_of_begins {c : Char} (hc : Begins c) : c ∉ breaks := by
  intro hmem
  simp only [breaks, List.mem_cons, List.not_mem_nil, or_false] at hmem
  rcases hmem with rfl | rfl | rfl | rfl <;> exact absurd hc (by decide)

/-- Natural numbers are words. -/
theorem spells_nat : Spells fun n : Nat => toString n where
  isWord n := by
    rw [toList_toString_nat]
    exact ⟨Nat.toDigits_ne_nil, fun c hc =>
      notMem_breaks_of_begins (.inl (isDigit_of_mem_toDigits hc))⟩
  injective n n' (h : toString n = toString n') := by
    have hdigits : Nat.toDigits 10 n = Nat.toDigits 10 n' := by
      rw [← toList_toString_nat, ← toList_toString_nat, h]
    rw [← Decimal.extend_toDigits n, hdigits, Decimal.extend_toDigits]

theorem eq_of_mem_minus {n : Int} {c : Char} (hc : c ∈ minus n) : c = '-' := by
  unfold minus at hc
  split at hc
  · exact List.mem_singleton.1 hc
  · exact absurd hc List.not_mem_nil

/-- Integers are words, with the minus sign. -/
theorem spells_int : Spells fun n : Int => toString n where
  isWord n := by
    rw [toList_toString]
    refine ⟨List.append_ne_nil_of_right_ne_nil _ Nat.toDigits_ne_nil, fun c hc => ?_⟩
    rcases List.mem_append.1 hc with hminus | hdigit
    · exact notMem_breaks_of_begins (.inr (eq_of_mem_minus hminus))
    · exact notMem_breaks_of_begins (.inl (isDigit_of_mem_toDigits hdigit))
  injective n n' (h : toString n = toString n') := by
    have htext : minus n ++ (Nat.toDigits 10 n.natAbs ++ []) =
        minus n' ++ (Nat.toDigits 10 n'.natAbs ++ []) := by
      rw [List.append_nil, List.append_nil, ← toList_toString, ← toList_toString, h]
    have hsplit := (splitMinus_append n).symm.trans ((congrArg splitMinus htext).trans
      (splitMinus_append n'))
    simp only [List.append_nil, Prod.mk.injEq, decide_eq_decide] at hsplit
    have habs : n.natAbs = n'.natAbs := by
      rw [← Decimal.extend_toDigits n.natAbs, hsplit.2, Decimal.extend_toDigits]
    have hsign : n < 0 ↔ n' < 0 := hsplit.1
    omega

end TensorInference.Text
