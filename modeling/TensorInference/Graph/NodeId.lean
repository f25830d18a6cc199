/-!
# Node identifiers

A node is identified by its position in the graph.  Positions are 32-bit numbers, and the largest
of these is not a position, so that there is one left to stand for no node.  A graph counts its
nodes in words that are wider, and cuts a number to 32 bits before it takes it for a position.
-/

namespace TensorInference

/-- The position of a node. -/
structure NodeId where
  toNat : Nat
  toNat_lt : toNat < 0xFFFFFFFF
  deriving DecidableEq, Repr

namespace NodeId

/-- The number of positions that there are. -/
def capacity : Nat := 0xFFFFFFFF

/-- The node at a position, if it is one. -/
def ofNat? (position : Nat) : Option NodeId :=
  if h : position < 0xFFFFFFFF then some ⟨position, h⟩ else none

@[simp] theorem ofNat?_toNat (id : NodeId) : ofNat? id.toNat = some id :=
  dif_pos id.toNat_lt

theorem toNat_of_ofNat? {position : Nat} {id : NodeId} (h : ofNat? position = some id) :
    id.toNat = position := by
  unfold ofNat? at h
  split at h
  · simp only [Option.some.injEq] at h
    rw [← h]
  · simp at h

theorem ofNat?_isSome_iff {position : Nat} :
    (ofNat? position).isSome ↔ position < capacity := by
  unfold ofNat? capacity
  split
  · next h => exact ⟨fun _ => h, fun _ => rfl⟩
  · next h => exact ⟨fun hn => absurd hn (by simp), fun hp => absurd hp h⟩

/-- The node at a 32-bit position.  The largest of these is the only one that is none. -/
def ofUInt32? (position : UInt32) : Option NodeId :=
  ofNat? position.toNat

/-- Numbers up to the capacity keep their value when they are cut to 32 bits. -/
theorem toNat_ofNat_of_le_capacity {n : Nat} (h : n ≤ capacity) : (UInt32.ofNat n).toNat = n :=
  UInt32.toNat_ofNat_of_lt' (Nat.lt_of_le_of_lt h (by decide))

/-- So they may be cut to 32 bits before they are taken for positions. -/
theorem ofUInt32?_ofNat {n : Nat} (h : n ≤ capacity) :
    ofUInt32? (UInt32.ofNat n) = ofNat? n := by
  rw [ofUInt32?, toNat_ofNat_of_le_capacity h]

/-- The position in decimal. -/
def text (id : NodeId) : String :=
  toString id.toNat

/-- The position after the name of the type. -/
def describe (id : NodeId) : String :=
  "NodeId(" ++ id.text ++ ")"

end NodeId

end TensorInference
