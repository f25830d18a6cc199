import TensorInference.Document.Scalar

/-!
# Lists in documents

Shapes, partial shapes and axis sets are lists of values of one token each.  `readList` reads such a
list from the front of the tokens, `writeList` writes one.
-/

namespace TensorInference.Document

/-- Reads something from the front of the tokens. -/
abbrev Reader (α : Type) := List Token → Except Error (α × List Token)

/-- Reads a value of one token. -/
def readOne {α : Type} (read : Token → Except Error α) : Reader α
  | [] => .error .malformed
  | t :: rest => (read t).map fun a => (a, rest)

/-- Reads on in a list behind one of its values. -/
def readMore {α : Type} (read : Token → Except Error α) : Reader (List α)
  | .closeList :: rest => .ok ([], rest)
  | .comma :: t :: rest => do
    let a ← read t
    let (as, rest) ← readMore read rest
    return (a :: as, rest)
  | _ => .error .malformed

/-- Reads a list. -/
def readList {α : Type} (read : Token → Except Error α) : Reader (List α)
  | .openList :: .closeList :: rest => .ok ([], rest)
  | .openList :: t :: rest => do
    let a ← read t
    let (as, rest) ← readMore read rest
    return (a :: as, rest)
  | [.openList] => .error .malformed
  | t :: _ => .error (t.refuse .list)
  | [] => .error .malformed

theorem length_of_readMore {α : Type} {read : Token → Except Error α} {tokens rest : List Token}
    {as : List α} (h : readMore read tokens = .ok (as, rest)) : rest.length < tokens.length := by
  fun_induction readMore read tokens generalizing as rest with
  | case1 rest' =>
    simp only [Except.ok.injEq, Prod.mk.injEq] at h
    simp [h.2]
  | case2 t tokens ih =>
    cases ha : read t with
    | error e => simp [ha, bind, Except.bind] at h
    | ok a =>
      cases hm : readMore read tokens with
      | error e => simp [ha, hm, bind, Except.bind] at h
      | ok more =>
        simp only [ha, hm, bind, Except.bind, pure, Except.pure, Except.ok.injEq,
          Prod.mk.injEq] at h
        have := ih hm
        simp only [List.length_cons, ← h.2]
        omega
  | case3 => simp at h

theorem length_of_readList {α : Type} {read : Token → Except Error α} {tokens rest : List Token}
    {as : List α} (h : readList read tokens = .ok (as, rest)) : rest.length < tokens.length := by
  unfold readList at h
  split at h
  · next rest' =>
    simp only [Except.ok.injEq, Prod.mk.injEq] at h
    simp only [List.length_cons, h.2]
    omega
  · next t tokens _ =>
    cases ha : read t with
    | error e => simp [ha, bind, Except.bind] at h
    | ok a =>
      cases hm : readMore read tokens with
      | error e => simp [ha, hm, bind, Except.bind] at h
      | ok more =>
        simp only [ha, hm, bind, Except.bind, pure, Except.pure, Except.ok.injEq,
          Prod.mk.injEq] at h
        have := length_of_readMore hm
        simp only [List.length_cons, ← h.2]
        omega
  all_goals simp at h

/-- The tokens behind one of the values of a list. -/
def writeMore : List Token → List Token
  | [] => [.closeList]
  | t :: ts => .comma :: t :: writeMore ts

/-- The tokens of a list. -/
def writeList : List Token → List Token
  | [] => [.openList, .closeList]
  | t :: ts => .openList :: t :: writeMore ts

/-- Reads a shape. -/
def readShape : Reader Shape := fun tokens => do
  let (dims, rest) ← readList readCount tokens
  return (⟨dims⟩, rest)

/-- Reads a partial shape, where no value stands for an unknown rank. -/
def readPartialShape : Reader PartialShape
  | .null :: rest => .ok (.unranked, rest)
  | tokens => do
    let (dims, rest) ← readList readDimension tokens
    return (.ranked dims, rest)

/-- Reads an axis set from a list in any order. -/
def readAxisSet : Reader AxisSet := fun tokens => do
  let (axes, rest) ← readList readCount tokens
  return (.ofList axes, rest)

/-- Writes a shape. -/
def writeShape (s : Shape) : List Token :=
  writeList (s.dims.map writeCount)

/-- Writes a partial shape. -/
def writePartialShape : PartialShape → List Token
  | .unranked => [.null]
  | .ranked dims => writeList (dims.map writeDimension)

/-- Writes an axis set, its axes ascending. -/
def writeAxisSet (s : AxisSet) : List Token :=
  writeList (s.axes.map writeCount)

end TensorInference.Document
