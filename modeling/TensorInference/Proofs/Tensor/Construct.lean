import TensorInference.Proofs.Tensor.Element

/-!
# Making tensors

A tensor is made of a shape and its data, or of a shape and a value that stands everywhere.  Data are
held against the exact count.  The other way counts from the left, and so does the text that says that
data have the wrong length: it states the number of elements.  Where the two counts part, at a zero
that comes too late, an empty tensor can therefore be made of its data but not be filled with a value,
and data that do not fit are refused without a text.

* `ofData_eq_error_iff` --- which data are refused, and why.
* `ofData_exact` --- counting and holding data against the count, as a whole.
* `message?_of_ofData`, `message?_eq_none_iff_of_ofData` --- what the refusal says.
* `full?_eq_none_iff` --- which shapes are not filled.
* `counts_agree_iff_not_lateZero` --- all about the two counts.
-/

namespace TensorInference.Tensor

variable {α : Type} {shape : Shape} {data : Array α} {e : DataError}

/-! ## Tensors of data -/

theorem ofData_eq_error_iff :
    ofData shape data = .error e ↔
      Word.maxValue < shape.dims.prod ∧ e = .tooManyElements shape ∨
        shape.dims.prod ≤ Word.maxValue ∧ shape.dims.prod ≠ data.size ∧
          e = .lengthMismatch shape data.size := by
  rw [ofData]
  cases hcount : shape.count? with
  | none =>
    have hlt := Shape.count?_eq_none_iff.1 hcount
    have hnot : ¬shape.dims.prod ≤ Word.maxValue := Nat.not_le.2 hlt
    simp only [hlt, hnot, true_and, false_and, or_false, Except.error.injEq]
    exact eq_comm
  | some n =>
    obtain ⟨rfl, hle⟩ := Shape.count?_eq_some_iff.1 hcount
    have hnot : ¬Word.maxValue < shape.dims.prod := Nat.not_lt.2 hle
    by_cases hsize : shape.dims.prod = data.size
    · simp only [if_pos hsize, reduceCtorEq, hnot, false_and, false_or, false_iff]
      exact fun h => h.2.1 hsize
    · simp only [if_neg hsize, hnot, false_and, false_or, hle, true_and, Except.error.injEq]
      rw [eq_comm]
      exact (and_iff_right hsize).symm

/-- **Counting is exact, and data are held against the exact count.**  A shape counts the product of
its extents as long as a word holds it, whatever their order, and one extent of zero leaves nothing to
count.  Data make a tensor, of this shape and with these elements, just when they are as many as the
product; they are refused for the shape when the product outgrows the word and for their length
otherwise, and for nothing else.  There are never more data than a word counts. -/
theorem ofData_exact (shape : Shape) (data : Array α) (hdata : data.size ≤ Word.maxValue) :
    (∀ n, shape.count? = some n ↔ shape.dims.prod = n ∧ n ≤ Word.maxValue) ∧
      (shape.count? = none ↔ Word.maxValue < shape.dims.prod) ∧
      (0 ∈ shape.dims → shape.count? = some 0) ∧
      (∀ shape' : Shape, shape'.dims.Perm shape.dims → shape'.count? = shape.count?) ∧
      (∀ t, ofData shape data = .ok t ↔ shape.dims.prod = data.size ∧ t = ⟨shape, data⟩) ∧
      (ofData shape data = .error (.tooManyElements shape) ↔ Word.maxValue < shape.dims.prod) ∧
      (ofData shape data = .error (.lengthMismatch shape data.size) ↔
        shape.dims.prod ≤ Word.maxValue ∧ shape.dims.prod ≠ data.size) ∧
      ∀ e, ofData shape data = .error e →
        e = .tooManyElements shape ∨ e = .lengthMismatch shape data.size := by
  refine ⟨fun n => Shape.count?_eq_some_iff, Shape.count?_eq_none_iff, fun hzero => if_pos hzero,
    fun shape' => Shape.count?_of_perm, fun t => ?_, ?_, ?_, fun e he => ?_⟩
  · rw [ofData_eq_ok_iff]
    constructor
    · rintro ⟨rfl, ht⟩
      exact ⟨ht.size_eq.symm, rfl⟩
    · rintro ⟨hsize, rfl⟩
      exact ⟨rfl, hsize.symm, hdata⟩
  · simp [ofData_eq_error_iff]
  · simp [ofData_eq_error_iff]
  · rcases ofData_eq_error_iff.1 he with ⟨-, rfl⟩ | ⟨-, -, rfl⟩
    · exact .inl rfl
    · exact .inr rfl

/-- Empty data make a tensor of extents `2 ^ 63`, `2` and `0`.  With a two in place of the zero there
are too many elements for any data. -/
theorem ofData_exact_late_zero :
    ofData ⟨[2 ^ 63, 2, 0]⟩ (#[] : Array Int32) = .ok ⟨⟨[2 ^ 63, 2, 0]⟩, #[]⟩ ∧
      ofData ⟨[2 ^ 63, 2, 2]⟩ (#[] : Array Int32) = .error (.tooManyElements ⟨[2 ^ 63, 2, 2]⟩) := by
  have hdata : (#[] : Array Int32).size ≤ Word.maxValue := Nat.zero_le _
  obtain ⟨-, -, -, -, hok, -⟩ := ofData_exact ⟨[2 ^ 63, 2, 0]⟩ #[] hdata
  obtain ⟨-, -, -, -, -, hmany, -⟩ := ofData_exact ⟨[2 ^ 63, 2, 2]⟩ #[] hdata
  exact ⟨(hok _).2 ⟨by decide, rfl⟩, hmany.2 (by decide)⟩

/-- The text of a refusal: there are too many elements, or so many of them and not so many data. -/
def refusalText (shape : Shape) (length : Nat) : String :=
  if Word.maxValue < shape.dims.prod then
    "number of elements in shape " ++ shape.text ++ " is too large"
  else
    "data length " ++ toString length ++ " does not match shape " ++ shape.text ++ " (" ++
      toString shape.dims.prod ++ " elements)"

/-- A refusal states the exact number of elements. -/
theorem message?_of_ofData (h : ofData shape data = .error e) (hlate : ¬shape.LateZero) :
    e.message? = some (refusalText shape data.size) := by
  rcases ofData_eq_error_iff.1 h with ⟨hlt, rfl⟩ | ⟨hle, -, rfl⟩
  · rw [refusalText, if_pos hlt]
    rfl
  · have hcount : shape.runningCount? = some shape.dims.prod := by
      rw [Shape.runningCount?_eq_count? hlate, Shape.count?_eq_some_iff]
      exact ⟨rfl, hle⟩
    rw [refusalText, if_neg (Nat.not_lt.2 hle), DataError.message?, hcount]
    rfl

/-- A refusal has no text just when a zero comes too late for counting from the left. -/
theorem message?_eq_none_iff_of_ofData (h : ofData shape data = .error e) :
    e.message? = none ↔ shape.LateZero := by
  constructor
  · intro hnone
    by_contra hlate
    rw [message?_of_ofData h hlate] at hnone
    cases hnone
  · intro hlate
    rcases ofData_eq_error_iff.1 h with ⟨hlt, -⟩ | ⟨-, -, rfl⟩
    · -- A zero among the extents leaves no element at all.
      have hprod := (Shape.count?_eq_some_iff.1 hlate.count?_eq).1
      omega
    · rw [DataError.message?, hlate.runningCount?_eq]
      rfl

/-! ## Tensors of one value -/

variable [Element α] {value : α}

theorem full?_eq_some_iff {t : Tensor α} :
    full? shape value = some t ↔
      shape.runningCount? = some shape.dims.prod ∧ fits α shape.dims.prod = true ∧
        t = ⟨shape, Array.replicate shape.dims.prod value⟩ := by
  simp only [full?, Option.map_eq_some_iff, Option.filter_eq_some_iff]
  constructor
  · rintro ⟨n, ⟨hcount, hfits⟩, rfl⟩
    obtain rfl := (Shape.runningCount?_eq_some_iff.1 hcount).2
    exact ⟨hcount, hfits, rfl⟩
  · rintro ⟨hcount, hfits, rfl⟩
    exact ⟨_, ⟨hcount, hfits⟩, rfl⟩

/-- A shape is not filled when its elements outgrow the word, when a zero comes too late, or when
storage does not hold as many elements. -/
theorem full?_eq_none_iff :
    full? shape value = none ↔
      Word.maxValue < shape.dims.prod ∨ shape.LateZero ∨ fits α shape.dims.prod = false := by
  have hsome : (∃ t, full? shape value = some t) ↔
      shape.runningCount? = some shape.dims.prod ∧ fits α shape.dims.prod = true := by
    simp only [full?_eq_some_iff]
    exact ⟨fun ⟨_, hcount, hfits, _⟩ => ⟨hcount, hfits⟩,
      fun ⟨hcount, hfits⟩ => ⟨_, hcount, hfits, rfl⟩⟩
  have hcount : shape.runningCount? = some shape.dims.prod ↔
      ¬shape.LateZero ∧ shape.dims.prod ≤ Word.maxValue := by
    by_cases hlate : shape.LateZero
    · simp [hlate, hlate.runningCount?_eq]
    · simp [hlate, Shape.runningCount?_eq_count? hlate, Shape.count?_eq_some_iff]
  rw [hcount] at hsome
  rw [← not_iff_not, ← ne_eq, Option.ne_none_iff_exists', hsome, ← Nat.not_le]
  simp only [not_or, not_not, Bool.not_eq_false]
  tauto

/-- **The two counts agree unless a zero comes too late**, that is, unless extents before the first
zero outgrow the word; then counting from the left gives up where there are no elements.  The exact
count depends on the product of the extents alone.  The running count is the same for every order of
the extents just when those other than zero stay in the word or no zero is among them.  So a shape is
filled with a value, everywhere and in all its elements, unless there are too many of them for the
word or for storage, or a zero comes too late. -/
theorem counts_agree_iff_not_lateZero (s : Shape) (value : α) :
    (s.runningCount? = s.count? ↔ ¬s.LateZero) ∧
      (s.LateZero → s.runningCount? = none ∧ s.count? = some 0) ∧
      (∀ n, s.count? = some n ↔ s.dims.prod = n ∧ n ≤ Word.maxValue) ∧
      (∀ s' : Shape, s'.dims.Perm s.dims → s'.count? = s.count?) ∧
      ((∀ s' : Shape, s'.dims.Perm s.dims → s'.runningCount? = s.runningCount?) ↔
        ¬(0 ∈ s.dims ∧ Word.maxValue < (s.dims.filter (· ≠ 0)).prod)) ∧
      (full? s value = none ↔
        Word.maxValue < s.dims.prod ∨ s.LateZero ∨ fits α s.dims.prod = false) ∧
      ∀ t, full? s value = some t → t = ⟨s, Array.replicate s.dims.prod value⟩ := by
  refine ⟨Shape.runningCount?_eq_count?_iff, fun h => ⟨h.runningCount?_eq, h.count?_eq⟩,
    fun n => Shape.count?_eq_some_iff, fun s' => Shape.count?_of_perm, ?_, full?_eq_none_iff, ?_⟩
  · rw [Shape.runningCount?_perm_iff, Shape.exists_perm_lateZero_iff]
  · exact fun t ht => (full?_eq_some_iff.1 ht).2.2

/-- The two counts differ where a zero follows extents of `2 ^ 63` and `2`, and counting from the left
also differs from itself, with the zero in front. -/
theorem counts_differ_late_zero :
    (⟨[2 ^ 63, 2, 0]⟩ : Shape).runningCount? = none ∧
      (⟨[2 ^ 63, 2, 0]⟩ : Shape).count? = some 0 ∧
      (⟨[0, 2 ^ 63, 2]⟩ : Shape).runningCount? = some 0 ∧
      full? ⟨[2 ^ 63, 2, 0]⟩ (7 : Int8) = none :=
  ⟨rfl, rfl, rfl, rfl⟩

end TensorInference.Tensor
