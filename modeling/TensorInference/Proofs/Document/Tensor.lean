import TensorInference.Proofs.Document.Faithful
import TensorInference.Proofs.Reduction.Laws
import TensorInference.Proofs.Tensor.Element

/-!
# Tensors, written and read again

A tensor is written as a map of its shape and its data, and the map is read entry by entry into a
draft.  Reading one entry is a step that fills in one field; when the map ends, the draft is judged
by the same rule that judges data from anywhere else.  So a tensor that has been read is well-sized,
and a tensor that is well-sized is accepted again, be its extents as huge as they may.

The elements have to be read as they are written, which booleans and integers are.

* `ExactType.faithfulToken` --- elements.
* `Draft.readEntries_of_comma`, `Draft.readEntries_of_closeMap` --- one entry of a map.
* `Draft.inWord_of_readEntries` --- what all entries together give.
* `faithful_tensor` --- tensors.
-/

namespace TensorInference

namespace Document

variable {α : Type}

/-! ## Elements -/

theorem faithfulToken_boolean :
    FaithfulToken (ReadElement.read (α := Bool)) WriteElement.write fun _ => True where
  isExact _ := trivial
  read_write _ := rfl
  valid_of_read _ := trivial
  write_ne_closeList _ := nofun

/-- Integers are read as they are written, if a word holds all values of their type. -/
theorem faithfulToken_integer [FixedInt α] (hleast : Numeral.Fits (FixedInt.least α))
    (hgreatest : Numeral.Fits (FixedInt.greatest α)) :
    FaithfulToken (ReadElement.read (α := α)) WriteElement.write fun _ => True where
  isExact {a} _ :=
    ⟨Int.le_trans hleast.1 (FixedInt.least_le_toInt a),
      Int.le_trans (FixedInt.toInt_le_greatest a) hgreatest.2⟩
  read_write {a} _ := by
    have hrange : FixedInt.least α ≤ FixedInt.toInt a ∧ FixedInt.toInt a ≤ FixedInt.greatest α :=
      ⟨FixedInt.least_le_toInt a, FixedInt.toInt_le_greatest a⟩
    show (if FixedInt.least α ≤ FixedInt.toInt a ∧ FixedInt.toInt a ≤ FixedInt.greatest α then
      Except.ok (FixedInt.ofInt (FixedInt.toInt a)) else _) = _
    rw [if_pos hrange, FixedInt.ofInt_toInt]
  valid_of_read _ := trivial
  write_ne_closeList _ := nofun

end Document

namespace ExactType

open Document

instance : (τ : ExactType) → ReadElement τ.Value
  | boolean => inferInstanceAs (ReadElement Bool)
  | i8 => inferInstanceAs (ReadElement Int8)
  | i16 => inferInstanceAs (ReadElement Int16)
  | i32 => inferInstanceAs (ReadElement Int32)
  | i64 => inferInstanceAs (ReadElement Int64)
  | u8 => inferInstanceAs (ReadElement UInt8)
  | u16 => inferInstanceAs (ReadElement UInt16)
  | u32 => inferInstanceAs (ReadElement UInt32)
  | u64 => inferInstanceAs (ReadElement UInt64)

instance : (τ : ExactType) → WriteElement τ.Value
  | boolean => inferInstanceAs (WriteElement Bool)
  | i8 => inferInstanceAs (WriteElement Int8)
  | i16 => inferInstanceAs (WriteElement Int16)
  | i32 => inferInstanceAs (WriteElement Int32)
  | i64 => inferInstanceAs (WriteElement Int64)
  | u8 => inferInstanceAs (WriteElement UInt8)
  | u16 => inferInstanceAs (WriteElement UInt16)
  | u32 => inferInstanceAs (WriteElement UInt32)
  | u64 => inferInstanceAs (WriteElement UInt64)

theorem faithfulToken (τ : ExactType) :
    FaithfulToken (ReadElement.read (α := τ.Value)) WriteElement.write fun _ => True := by
  cases τ with
  | boolean => exact faithfulToken_boolean
  | i8 => exact faithfulToken_integer (α := Int8) (by decide) (by decide)
  | i16 => exact faithfulToken_integer (α := Int16) (by decide) (by decide)
  | i32 => exact faithfulToken_integer (α := Int32) (by decide) (by decide)
  | i64 => exact faithfulToken_integer (α := Int64) (by decide) (by decide)
  | u8 => exact faithfulToken_integer (α := UInt8) (by decide) (by decide)
  | u16 => exact faithfulToken_integer (α := UInt16) (by decide) (by decide)
  | u32 => exact faithfulToken_integer (α := UInt32) (by decide) (by decide)
  | u64 => exact faithfulToken_integer (α := UInt64) (by decide) (by decide)

end ExactType

namespace Document

variable {α : Type} [ReadElement α]

/-! ## Entry by entry -/

namespace Draft

variable {draft after : Draft α} {key : String} {field : Field} {value rest : List Token}

theorem readValue_shape {s : Shape} (hread : readShape value = .ok (s, rest)) :
    draft.readValue .shape value = .ok ({ draft with shape := some s }, rest) := by
  simp only [readValue, hread]
  rfl

theorem readValue_data {data : List α}
    (hread : readList ReadElement.read value = .ok (data, rest)) :
    draft.readValue .data value = .ok ({ draft with data := some data.toArray }, rest) := by
  simp only [readValue, hread]
  rfl

theorem readEntries_of_comma (hclaim : draft.claim key = .ok field)
    (hvalue : draft.readValue field value = .ok (after, .comma :: rest)) :
    draft.readEntries (.text key :: .colon :: value) = after.readEntries rest := by
  rw [readEntries.eq_def]
  simp only [hclaim]
  split
  · next h => simp [hvalue] at h
  · next h => simp [hvalue] at h
  · next h =>
    rw [hvalue] at h
    cases h
    rfl
  · next hcomma h => exact absurd (Except.ok.inj (h.symm.trans hvalue)) (hcomma after rest)

theorem readEntries_of_closeMap (hclaim : draft.claim key = .ok field)
    (hvalue : draft.readValue field value = .ok (after, .closeMap :: rest)) :
    draft.readEntries (.text key :: .colon :: value) = after.finish.map fun t => (t, rest) := by
  rw [readEntries.eq_def]
  simp only [hclaim]
  split
  · next h => simp [hvalue] at h
  · next h =>
    rw [hvalue] at h
    cases h
    rfl
  · next h => simp [hvalue] at h
  · next hend _ h => exact absurd (Except.ok.inj (h.symm.trans hvalue)) (hend after rest)

/-- A key that is refused is refused whatever stands behind it. -/
theorem readEntries_of_claim_eq_error {e : Error} (hclaim : draft.claim key = .error e)
    (behind : List Token) : draft.readEntries (.text key :: behind) = .error e := by
  rw [readEntries.eq_def]
  simp only [hclaim]

theorem readEntries_of_readValue_eq_error {e : Error} (hclaim : draft.claim key = .ok field)
    (hvalue : draft.readValue field value = .error e) :
    draft.readEntries (.text key :: .colon :: value) = .error e := by
  rw [readEntries.eq_def]
  simp only [hclaim]
  split
  · next h => exact congrArg Except.error (Except.error.inj (h.symm.trans hvalue))
  · next h => simp [hvalue] at h
  · next h => simp [hvalue] at h
  · next h => simp [hvalue] at h

/-- The extents that have been read are words. -/
def InWord (draft : Draft α) : Prop :=
  ∀ s ∈ draft.shape, s.InWord

omit [ReadElement α] in
theorem inWord_empty : (empty : Draft α).InWord :=
  fun s hs => absurd hs (Option.not_mem_none s)

theorem inWord_of_readValue (hdraft : draft.InWord)
    (hread : draft.readValue field value = .ok (after, rest)) : after.InWord := by
  cases field with
  | shape =>
    obtain ⟨⟨shape, behind⟩, hshape, hread⟩ := Outcome.bind_eq_ok_iff.1 hread
    cases hread
    intro s hs
    cases hs
    exact faithful_shape.valid_of_read hshape
  | data =>
    obtain ⟨⟨data, behind⟩, hdata, hread⟩ := Outcome.bind_eq_ok_iff.1 hread
    cases hread
    exact hdraft

omit [ReadElement α] in
/-- What the finished draft gives is well-sized, as all data are that make a tensor. -/
theorem wellSized_of_finish {t : Tensor α} (hdraft : draft.InWord)
    (hfinish : draft.finish = .ok t) : t.WellSized ∧ t.shape.InWord := by
  unfold finish at hfinish
  split at hfinish
  · cases hfinish
  · cases hfinish
  · next shape data hshape hdata =>
    obtain ⟨rfl, ht⟩ := Tensor.ofData_eq_ok_iff.1 (Outcome.mapError_eq_ok_iff.1 hfinish)
    exact ⟨ht, hdraft shape hshape⟩

/-- All entries together give a well-sized tensor whose extents are words, if they give a tensor. -/
theorem wellSized_of_readEntries {t : Tensor α} {tokens : List Token} (hdraft : draft.InWord)
    (hread : draft.readEntries tokens = .ok (t, rest)) : t.WellSized ∧ t.shape.InWord := by
  fun_induction readEntries draft tokens with
  | case3 draft key field value _ after rest' hvalue =>
    cases hfinish : after.finish with
    | error e =>
      rw [hfinish] at hread
      cases hread
    | ok u =>
      rw [hfinish] at hread
      cases hread
      exact wellSized_of_finish (inWord_of_readValue hdraft hvalue) hfinish
  | case4 draft key field value _ after rest' hvalue _ ih =>
    exact ih (inWord_of_readValue hdraft hvalue) hread
  | _ => cases hread

end Draft

/-! ## Whole tensors -/

/-- What is written for a shape and data is read as what they make, be it a tensor or not. -/
theorem readTensor_writeTensor [WriteElement α]
    (h : FaithfulToken (ReadElement.read (α := α)) WriteElement.write fun _ => True) {t : Tensor α}
    (hshape : t.shape.InWord) (rest : List Token) :
    readTensor (writeTensor t ++ rest) =
      ((Tensor.ofData t.shape t.data).mapError .badTensor).map fun t => (t, rest) := by
  have hfirst (behind : List Token) :
      (Draft.empty : Draft α).readValue .shape (writeShape t.shape ++ behind) =
        .ok (⟨some t.shape, none⟩, behind) :=
    Draft.readValue_shape (faithful_shape.read_write hshape behind)
  have hsecond (behind : List Token) :
      (⟨some t.shape, none⟩ : Draft α).readValue .data
          (writeList (t.data.toList.map WriteElement.write) ++ behind) =
        .ok (⟨some t.shape, some t.data⟩, behind) :=
    Draft.readValue_data (h.list.read_write (fun _ _ => trivial) behind)
  calc readTensor (writeTensor t ++ rest)
      = Draft.empty.readEntries (.text Field.shape.name :: .colon :: (writeShape t.shape ++
          .comma :: .text Field.data.name :: .colon ::
            (writeList (t.data.toList.map WriteElement.write) ++ .closeMap :: rest))) := by
        rw [writeTensor, List.append_assoc, List.append_assoc]
        rfl
    _ = (⟨some t.shape, none⟩ : Draft α).readEntries (.text Field.data.name :: .colon ::
          (writeList (t.data.toList.map WriteElement.write) ++ .closeMap :: rest)) :=
        Draft.readEntries_of_comma rfl (hfirst _)
    _ = (⟨some t.shape, some t.data⟩ : Draft α).finish.map fun t => (t, rest) :=
        Draft.readEntries_of_closeMap rfl (hsecond _)

theorem legible_writeTensor [WriteElement α]
    (h : FaithfulToken (ReadElement.read (α := α)) WriteElement.write fun _ => True) {t : Tensor α}
    (hshape : t.shape.InWord) : Legible (writeTensor t) := by
  have hdims : Legible (writeShape t.shape) := faithful_shape.legible hshape
  have hdata : Legible (writeList (t.data.toList.map WriteElement.write)) :=
    h.list.legible fun _ _ => trivial
  refine Legible.append (Legible.append ?_ ?_ nofun) (.singleton trivial) nofun
  · exact .cons trivial nofun (.cons trivial nofun (.cons trivial nofun hdims))
  · exact .cons trivial nofun (.cons trivial nofun (.cons trivial nofun hdata))

/-- The text of a shape and data is read as what they make. -/
theorem read_write_tensor [WriteElement α]
    (h : FaithfulToken (ReadElement.read (α := α)) WriteElement.write fun _ => True) {t : Tensor α}
    (hshape : t.shape.InWord) :
    read readTensor (write (writeTensor t)) =
      (Tensor.ofData t.shape t.data).mapError .badTensor := by
  have hread := readTensor_writeTensor h hshape []
  rw [List.append_nil] at hread
  exact read_write_eq_of_legible (legible_writeTensor h hshape) hread

/-- Tensors are read as they are written, if their elements are. -/
theorem faithful_tensor [WriteElement α]
    (h : FaithfulToken (ReadElement.read (α := α)) WriteElement.write fun _ => True) :
    Faithful (readTensor (α := α)) writeTensor fun t => t.WellSized ∧ t.shape.InWord where
  legible ht := legible_writeTensor h ht.2
  read_write {t} ht rest := by
    rw [readTensor_writeTensor h ht.2, Tensor.ofData_eq_ok_iff.2 ⟨rfl, ht.1⟩]
    rfl
  valid_of_read {tokens t rest} hread := by
    unfold readTensor at hread
    split at hread
    · cases hread
    · exact Draft.wellSized_of_readEntries Draft.inWord_empty hread
    · cases hread
    · cases hread

end Document

end TensorInference
