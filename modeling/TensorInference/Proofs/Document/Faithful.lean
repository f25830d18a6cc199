import Mathlib.Data.List.Sort
import TensorInference.Proofs.Document.Token
import TensorInference.Proofs.Outcome
import TensorInference.Proofs.Shape.Description

/-!
# Readers that undo writers

A reader and a writer of one type belong together when everything that the writer makes of a valid
value is legible and is read as that value, whatever comes after it, and when nothing but valid
values is ever read.  The values are numbers of a machine, so that validity says which of the
mathematical values the machine has.  Since both directions are asked for, a value that has been
read can be written, and is read again as the same value, in whatever form it was written first.

Values of one token come first (`FaithfulToken`), then lists of them, and then what lists are made
into.  Sets of axes show why the second direction is needed: they are read from lists in any order,
but are written ascending.

* `Faithful` --- a reader that undoes a writer.
* `FaithfulToken.list` --- lists.
* `faithful_shape`, `faithful_partialShape`, `faithful_axisSet` --- descriptions of tensors.
* `Faithful.read_write_text` --- whole texts.
-/

namespace TensorInference

namespace AxisSet

/-- Every axis is a word. -/
def InWord (s : AxisSet) : Prop :=
  ∀ axis ∈ s.axes, axis ≤ Word.maxValue

instance (s : AxisSet) : Decidable s.InWord :=
  inferInstanceAs (Decidable (∀ axis ∈ s.axes, axis ≤ Word.maxValue))

/-- A set is made of its own list again. -/
theorem ofList_axes (s : AxisSet) : ofList s.axes = s :=
  AxisSet.ext <| List.Pairwise.eq_of_mem_iff (ofList s.axes).ascending s.ascending fun _ =>
    Ascending.mem_ofList

end AxisSet

namespace Document

variable {α β : Type}

/-- Every valid value is read as it was written, and only valid values are read. -/
structure Faithful (reader : Reader α) (writer : α → List Token) (Valid : α → Prop) : Prop where
  legible : ∀ {a}, Valid a → Legible (writer a)
  read_write : ∀ {a}, Valid a → ∀ rest, reader (writer a ++ rest) = .ok (a, rest)
  valid_of_read : ∀ {tokens a rest}, reader tokens = .ok (a, rest) → Valid a

/-- The same of values of one token, none of which ends a list. -/
structure FaithfulToken (read : Token → Except Error α) (write : α → Token) (Valid : α → Prop) :
    Prop where
  isExact : ∀ {a}, Valid a → (write a).IsExact
  read_write : ∀ {a}, Valid a → read (write a) = .ok a
  valid_of_read : ∀ {t a}, read t = .ok a → Valid a
  write_ne_closeList : ∀ a, write a ≠ .closeList

namespace FaithfulToken

variable {read : Token → Except Error α} {write : α → Token} {Valid : α → Prop}

theorem one (h : FaithfulToken read write Valid) :
    Faithful (readOne read) (fun a => [write a]) Valid where
  legible ha := .singleton (h.isExact ha)
  read_write {a} ha rest := by
    show (read (write a)).map _ = _
    rw [h.read_write ha]
    rfl
  valid_of_read {tokens a rest} hread := by
    cases tokens with
    | nil => cases hread
    | cons t tokens =>
      cases ht : read t with
      | error e =>
        rw [readOne, ht] at hread
        cases hread
      | ok b =>
        rw [readOne, ht] at hread
        cases hread
        exact h.valid_of_read ht

/-! ## Lists -/

theorem readMore_writeMore (h : FaithfulToken read write Valid) {as : List α}
    (has : ∀ a ∈ as, Valid a) (rest : List Token) :
    readMore read (writeMore (as.map write) ++ rest) = .ok (as, rest) := by
  induction as with
  | nil => rfl
  | cons a as ih =>
    obtain ⟨ha, has⟩ := List.forall_mem_cons.1 has
    show readMore read (.comma :: write a :: (writeMore (as.map write) ++ rest)) = _
    rw [readMore, h.read_write ha, ih has]
    rfl

theorem readList_writeList (h : FaithfulToken read write Valid) {as : List α}
    (has : ∀ a ∈ as, Valid a) (rest : List Token) :
    readList read (writeList (as.map write) ++ rest) = .ok (as, rest) := by
  cases as with
  | nil => rfl
  | cons a as =>
    obtain ⟨ha, has⟩ := List.forall_mem_cons.1 has
    show readList read (.openList :: write a :: (writeMore (as.map write) ++ rest)) = _
    rw [readList, h.read_write ha, h.readMore_writeMore has]
    · rfl
    · exact h.write_ne_closeList a

theorem valid_of_readMore (h : FaithfulToken read write Valid) {tokens rest : List Token}
    {as : List α} (hread : readMore read tokens = .ok (as, rest)) : ∀ a ∈ as, Valid a := by
  fun_induction readMore read tokens generalizing as rest with
  | case1 rest' =>
    cases hread
    exact List.forall_mem_nil Valid
  | case2 t tokens ih =>
    obtain ⟨a, ha, hread⟩ := Outcome.bind_eq_ok_iff.1 hread
    obtain ⟨⟨more, after⟩, hmore, hread⟩ := Outcome.bind_eq_ok_iff.1 hread
    cases hread
    exact List.forall_mem_cons.2 ⟨h.valid_of_read ha, ih hmore⟩
  | case3 => cases hread

theorem valid_of_readList (h : FaithfulToken read write Valid) {tokens rest : List Token}
    {as : List α} (hread : readList read tokens = .ok (as, rest)) : ∀ a ∈ as, Valid a := by
  unfold readList at hread
  split at hread
  · cases hread
    exact List.forall_mem_nil Valid
  · obtain ⟨a, ha, hread⟩ := Outcome.bind_eq_ok_iff.1 hread
    obtain ⟨⟨more, after⟩, hmore, hread⟩ := Outcome.bind_eq_ok_iff.1 hread
    cases hread
    exact List.forall_mem_cons.2 ⟨h.valid_of_read ha, h.valid_of_readMore hmore⟩
  all_goals cases hread

theorem list (h : FaithfulToken read write Valid) :
    Faithful (readList read) (fun as => writeList (as.map write)) fun as => ∀ a ∈ as, Valid a where
  legible {as} has := by
    refine legible_writeList fun t ht => ?_
    obtain ⟨a, ha, rfl⟩ := List.mem_map.1 ht
    exact h.isExact (has a ha)
  read_write has rest := h.readList_writeList has rest
  valid_of_read hread := h.valid_of_readList hread

end FaithfulToken

/-- What is read can be made into something else, and is written as what it was made from. -/
theorem Faithful.map {reader : Reader α} {writer : α → List Token} {Valid : α → Prop}
    {Valid' : β → Prop} (h : Faithful reader writer Valid) (make : α → β) (parts : β → α)
    (hmake : ∀ b, make (parts b) = b) (hparts : ∀ b, Valid' b → Valid (parts b))
    (hvalid : ∀ a, Valid a → Valid' (make a)) :
    Faithful (fun tokens => do let (a, rest) ← reader tokens; return (make a, rest))
      (fun b => writer (parts b)) Valid' where
  legible hb := h.legible (hparts _ hb)
  read_write {b} hb rest := by
    rw [h.read_write (hparts b hb)]
    show Except.ok (make (parts b), rest) = _
    rw [hmake]
  valid_of_read hread := by
    obtain ⟨⟨a, after⟩, ha, hread⟩ := Outcome.bind_eq_ok_iff.1 hread
    cases hread
    exact hvalid a (h.valid_of_read ha)

/-! ## Counts, dimensions and element types -/

theorem fits_of_le {n : Nat} (h : n ≤ Word.maxValue) : Numeral.Fits n := by
  unfold Numeral.Fits
  omega

theorem faithfulToken_count : FaithfulToken readCount writeCount (· ≤ Word.maxValue) where
  isExact ha := fits_of_le ha
  read_write {n} hn := by
    have hrange : (0 : Int) ≤ n ∧ (n : Int) ≤ Word.maxValue := by omega
    show (if (0 : Int) ≤ n ∧ (n : Int) ≤ Word.maxValue then _ else _) = _
    rw [if_pos hrange, Int.toNat_natCast]
  valid_of_read {t n} hread := by
    unfold readCount at hread
    split at hread
    · split at hread
      · cases hread
        omega
      · cases hread
    · cases hread
  write_ne_closeList _ := nofun

theorem faithfulToken_dimension :
    FaithfulToken readDimension writeDimension Dimension.InWord where
  isExact {d} hd := by
    cases d with
    | known n => exact fits_of_le hd
    | unknown => trivial
  read_write {d} hd := by
    cases d with
    | known n =>
      show (readCount (writeCount n)).map Dimension.known = _
      rw [faithfulToken_count.read_write hd]
      rfl
    | unknown => rfl
  valid_of_read {t d} hread := by
    unfold readDimension at hread
    split at hread
    · cases hread
      trivial
    · cases hn : readCount t with
      | error e =>
        rw [hn] at hread
        cases hread
      | ok n =>
        rw [hn] at hread
        cases hread
        exact faithfulToken_count.valid_of_read hn
  write_ne_closeList d := by
    cases d with
    | known n => exact nofun
    | unknown => exact nofun

theorem faithfulToken_elementType :
    FaithfulToken readElementType writeElementType fun _ => True where
  isExact _ := trivial
  read_write {t} _ := by
    rw [writeElementType, readElementType, ElementType.ofName?_name]
  valid_of_read _ := trivial
  write_ne_closeList _ := nofun

/-! ## Descriptions of tensors -/

theorem faithful_shape : Faithful readShape writeShape Shape.InWord :=
  faithfulToken_count.list.map Shape.mk Shape.dims (fun _ => rfl) (fun _ h => h) fun _ h => h

/-- Axes are read in any order and with repetitions, and written in order. -/
theorem faithful_axisSet : Faithful readAxisSet writeAxisSet AxisSet.InWord :=
  faithfulToken_count.list.map AxisSet.ofList AxisSet.axes AxisSet.ofList_axes (fun _ h => h)
    fun _ h axis haxis => h axis (Ascending.mem_ofList.1 haxis)

/-- A list of dimensions is a shape of known rank, as it does not begin as an unknown one. -/
theorem readPartialShape_eq_ok {tokens rest : List Token} {dims : List Dimension}
    (hread : readList readDimension tokens = .ok (dims, rest)) :
    readPartialShape tokens = .ok (.ranked dims, rest) := by
  unfold readPartialShape
  split
  · cases hread
  · rw [hread]
    rfl

theorem faithful_partialShape :
    Faithful readPartialShape writePartialShape PartialShape.InWord where
  legible {p} hp := by
    cases p with
    | unranked => exact .singleton trivial
    | ranked dims => exact faithfulToken_dimension.list.legible hp
  read_write {p} hp rest := by
    cases p with
    | unranked => rfl
    | ranked dims =>
      exact readPartialShape_eq_ok (faithfulToken_dimension.list.read_write hp rest)
  valid_of_read {tokens p rest} hread := by
    unfold readPartialShape at hread
    split at hread
    · cases hread
      trivial
    · obtain ⟨⟨dims, after⟩, hdims, hread⟩ := Outcome.bind_eq_ok_iff.1 hread
      cases hread
      exact faithfulToken_dimension.list.valid_of_read hdims

/-! ## Whole texts -/

/-- A text is read as its tokens are. -/
theorem read_eq_of_scan {reader : Reader α} {text : String} {tokens : List Token}
    {x : Except Error α} (hscan : Token.scan text.toList = (tokens, true))
    (hread : reader tokens = x.map fun a => (a, [])) : read reader text = x := by
  rw [read, hscan]
  simp only [hread]
  cases x with
  | error e => rfl
  | ok a => rfl

/-- Where the tokens are refused, it does not matter whether they are all. -/
theorem read_eq_error_of_scan {reader : Reader α} {text : String} {tokens : List Token}
    {complete : Bool} {e : Error} (hscan : Token.scan text.toList = (tokens, complete))
    (hread : reader tokens = .error e) : read reader text = .error e := by
  rw [read, hscan]
  simp only [hread]

theorem Legible.scan_toList_write {tokens : List Token} (h : Legible tokens) :
    Token.scan (write tokens).toList = (tokens, true) := by
  rw [write, String.toList_ofList, h.scan_write]

/-- A legible text is read as its tokens are. -/
theorem read_write_eq_of_legible {reader : Reader α} {tokens : List Token} {x : Except Error α}
    (hlegible : Legible tokens) (hread : reader tokens = x.map fun a => (a, [])) :
    read reader (write tokens) = x :=
  read_eq_of_scan hlegible.scan_toList_write hread

theorem read_write_of_legible {reader : Reader α} {tokens : List Token} {a : α}
    (hlegible : Legible tokens) (hread : reader tokens = .ok (a, [])) :
    read reader (write tokens) = .ok a :=
  read_write_eq_of_legible hlegible hread

/-- Making something else of what is read is reading the text and making it of that. -/
theorem read_make (reader : Reader α) (make : α → β) (text : String) :
    read (fun tokens => do let (a, rest) ← reader tokens; return (make a, rest)) text =
      (read reader text).map make := by
  rw [read, read]
  cases hread : reader (Token.scan text.toList).1 with
  | error e =>
    simp only [hread]
    rfl
  | ok found =>
    simp only [hread]
    show (if found.2.isEmpty && _ then Except.ok (make found.1) else _) = _
    cases found.2.isEmpty && (Token.scan text.toList).2
    · rfl
    · rfl

theorem exists_of_read {reader : Reader α} {text : String} {a : α} (h : read reader text = .ok a) :
    ∃ tokens rest, reader tokens = .ok (a, rest) := by
  unfold read at h
  split at h
  next tokens complete hscan =>
    split at h
    · cases h
    · next b rest hread =>
      split at h
      · cases h
        exact ⟨tokens, rest, hread⟩
      · cases h

/-- The text of a valid value is read as that value. -/
theorem Faithful.read_write_text {reader : Reader α} {writer : α → List Token} {Valid : α → Prop}
    (h : Faithful reader writer Valid) {a : α} (ha : Valid a) :
    read reader (write (writer a)) = .ok a := by
  have hread := h.read_write ha []
  rw [List.append_nil] at hread
  exact read_write_of_legible (h.legible ha) hread

end Document

end TensorInference
