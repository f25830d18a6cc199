import TensorInference.Document.List

/-!
# Tensors in documents

A tensor is a map with the fields `shape` and `data`, once each and in either order.  The map is
read entry by entry into a `Draft`.  `Draft.claim` judges a key before its value is looked at, so a
field that is given twice is refused whatever its second value is.  `Draft.finish` makes the tensor
when the map ends; it misses the shape before the data, and only then checks one against the other.
-/

namespace TensorInference.Document

/-- A tensor that is read in part. -/
structure Draft (α : Type) where
  shape : Option Shape
  data : Option (Array α)

namespace Draft

variable {α : Type}

/-- Nothing has been read. -/
def empty : Draft α := ⟨none, none⟩

/-- The field that a key means, unless it is no field or has been read already. -/
def claim (draft : Draft α) (key : String) : Except Error Field :=
  if key = Field.data.name then
    if draft.data.isSome then .error (.duplicateField .data) else .ok .data
  else if key = Field.shape.name then
    if draft.shape.isSome then .error (.duplicateField .shape) else .ok .shape
  else .error (.unknownField key)

/-- The tensor of all that has been read. -/
def finish (draft : Draft α) : Except Error (Tensor α) :=
  match draft.shape, draft.data with
  | none, _ => .error (.missingField .shape)
  | some _, none => .error (.missingField .data)
  | some shape, some data => (Tensor.ofData shape data).mapError .badTensor

/-- Reads the value of a field. -/
def readValue [ReadElement α] (draft : Draft α) : Field → Reader (Draft α)
  | .shape => fun tokens => do
    let (shape, rest) ← readShape tokens
    return ({ draft with shape := some shape }, rest)
  | .data => fun tokens => do
    let (data, rest) ← readList ReadElement.read tokens
    return ({ draft with data := some data.toArray }, rest)

theorem length_of_readValue [ReadElement α] {draft after : Draft α} {field : Field}
    {tokens rest : List Token} (h : draft.readValue field tokens = .ok (after, rest)) :
    rest.length < tokens.length := by
  cases field with
  | shape =>
    cases hl : readList readCount tokens with
    | error e => simp [readValue, readShape, hl, bind, Except.bind] at h
    | ok p =>
      simp only [readValue, readShape, hl, bind, Except.bind, pure, Except.pure, Except.ok.injEq,
        Prod.mk.injEq] at h
      have := length_of_readList hl
      rw [← h.2]
      exact this
  | data =>
    cases hl : readList (ReadElement.read (α := α)) tokens with
    | error e => simp [readValue, hl, bind, Except.bind] at h
    | ok p =>
      simp only [readValue, hl, bind, Except.bind, pure, Except.pure, Except.ok.injEq,
        Prod.mk.injEq] at h
      have := length_of_readList hl
      rw [← h.2]
      exact this

/-- Reads the entries of a map from a key on, up to the end of the map. -/
def readEntries [ReadElement α] (draft : Draft α) (tokens : List Token) :
    Except Error (Tensor α × List Token) :=
  match tokens with
  | .text key :: rest =>
    match draft.claim key, rest with
    | .error e, _ => .error e
    | .ok field, .colon :: value =>
      match h : draft.readValue field value with
      | .error e => .error e
      | .ok (draft, .closeMap :: rest) => draft.finish.map fun t => (t, rest)
      | .ok (draft, .comma :: rest) =>
        have := length_of_readValue h
        readEntries draft rest
      | .ok _ => .error .malformed
    | .ok _, _ => .error .malformed
  | _ => .error .malformed
termination_by tokens.length
decreasing_by
  simp only [List.length_cons] at this ⊢
  omega

end Draft

variable {α : Type}

/-- Reads a tensor. -/
def readTensor [ReadElement α] : Reader (Tensor α)
  | .openMap :: .closeMap :: rest => (Draft.empty.finish).map fun t => (t, rest)
  | .openMap :: rest => Draft.empty.readEntries rest
  | t :: _ => .error (t.refuse .tensor)
  | [] => .error .malformed

/-- Writes a tensor. -/
def writeTensor [WriteElement α] (t : Tensor α) : List Token :=
  .openMap :: .text Field.shape.name :: .colon :: writeShape t.shape ++
    .comma :: .text Field.data.name :: .colon ::
      writeList (t.data.toList.map WriteElement.write) ++ [.closeMap]

end TensorInference.Document
