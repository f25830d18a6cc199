import TensorInference.Proofs.Document.Tensor

/-!
# Documents, written and read again

All kinds of documents as one family, each with the values of its own, the reader and the writer of
these values, and what makes them values of a machine.

What is written for a valid value is read as that value (`roundTrip`).  In the other direction a
text need not be written again as it was: it can have white space, an axis set can be in any order,
and the fields of a tensor can be.  But whatever value it is read as, that value is valid, so what
is written for it is a normal form: it is read as the same value.
-/

namespace TensorInference.Document

/-- What a document holds. -/
inductive Format where
  | elementType
  | dimension
  | shape
  | partialShape
  | axisSet
  | tensor (τ : ExactType)
  deriving DecidableEq, Repr

namespace Format

def Value : Format → Type
  | elementType => ElementType
  | dimension => Dimension
  | shape => Shape
  | partialShape => PartialShape
  | axisSet => AxisSet
  | tensor τ => Tensor τ.Value

/-- Reads a value from the front of the tokens. -/
def reader : (f : Format) → Reader f.Value
  | elementType => readOne readElementType
  | dimension => readOne readDimension
  | shape => readShape
  | partialShape => readPartialShape
  | axisSet => readAxisSet
  | tensor _ => readTensor

/-- Writes a value. -/
def writer : (f : Format) → f.Value → List Token
  | elementType => fun t => [writeElementType t]
  | dimension => fun d => [writeDimension d]
  | shape => writeShape
  | partialShape => writePartialShape
  | axisSet => writeAxisSet
  | tensor _ => writeTensor

/-- All numbers are words, and a tensor has as many elements as its shape says. -/
def Valid : (f : Format) → f.Value → Prop
  | elementType => fun _ => True
  | dimension => Dimension.InWord
  | shape => Shape.InWord
  | partialShape => PartialShape.InWord
  | axisSet => AxisSet.InWord
  | tensor _ => fun t => t.WellSized ∧ t.shape.InWord

theorem faithful (f : Format) : Faithful f.reader f.writer f.Valid := by
  cases f with
  | elementType => exact faithfulToken_elementType.one
  | dimension => exact faithfulToken_dimension.one
  | shape => exact faithful_shape
  | partialShape => exact faithful_partialShape
  | axisSet => exact faithful_axisSet
  | tensor τ => exact faithful_tensor τ.faithfulToken

/-- **Documents are read as they were written.**  The text of a valid value is read as that value.
A text that is read at all is read as a valid value, and the text of that value is read as the same
value. -/
theorem roundTrip (f : Format) :
    (∀ a, f.Valid a → read f.reader (write (f.writer a)) = .ok a) ∧
      ∀ text a, read f.reader text = .ok a →
        f.Valid a ∧ read f.reader (write (f.writer a)) = .ok a := by
  have hwritten (a : f.Value) (ha : f.Valid a) : read f.reader (write (f.writer a)) = .ok a :=
    f.faithful.read_write_text ha
  refine ⟨hwritten, fun text a hread => ?_⟩
  obtain ⟨tokens, rest, htokens⟩ := exists_of_read hread
  have ha := f.faithful.valid_of_read htokens
  exact ⟨ha, hwritten a ha⟩

/-- A tensor without elements is read again, however large its other extents are, and a list of axes
that is not in order has a normal form. -/
theorem roundTrip_huge_extents :
    read readTensor (write (writeTensor (⟨⟨[2 ^ 64 - 1, 0, 2 ^ 63]⟩, #[]⟩ : Tensor Int8))) =
        .ok (⟨⟨[2 ^ 64 - 1, 0, 2 ^ 63]⟩, #[]⟩ : Tensor Int8) ∧
      read readAxisSet "[3,1,3]" = .ok (.ofList [1, 3]) ∧
      read readAxisSet "[1,3]" = .ok (.ofList [1, 3]) := by
  have hread : read readAxisSet "[3,1,3]" = .ok (.ofList [1, 3]) := by
    have htext : write (writeList ([3, 1, 3].map writeCount)) = "[3,1,3]" := by decide
    have hlegible : Legible (writeList ([3, 1, 3].map writeCount)) :=
      faithfulToken_count.list.legible (by decide)
    rw [← htext]
    exact read_write_of_legible hlegible rfl
  refine ⟨?_, hread, ?_⟩
  · exact (roundTrip (.tensor .i8)).1 _ ⟨⟨rfl, by decide⟩, by decide⟩
  · exact ((roundTrip .axisSet).2 _ _ hread).2

end Format

end TensorInference.Document
