/-!
# Storage

The entries of a list or of a tensor are stored in one block, and a block has at most `maxBytes`
bytes.  How many entries there will be is known before the first of them is computed, so what does
not fit is refused at once.  `holds` is the test.
-/

namespace TensorInference.Storage

/-- The largest number of bytes in a block: half of the numbers that a word holds. -/
def maxBytes : Nat := 0x7FFFFFFFFFFFFFFF

/-- The bytes that are kept for each entry of a list of dimensions or axes: two words. -/
def entryWidth : Nat := 16

/-- Whether so many entries, each of `width` bytes, fit into a block. -/
def holds (width count : Nat) : Bool :=
  width * count ≤ maxBytes

@[simp] theorem holds_zero (width : Nat) : holds width 0 = true := by
  simp [holds]

theorem holds_iff {width count : Nat} : holds width count = true ↔ width * count ≤ maxBytes := by
  simp [holds]

/-- Fewer entries fit where more do. -/
theorem holds_of_le {width count count' : Nat} (hle : count' ≤ count)
    (h : holds width count = true) : holds width count' = true :=
  holds_iff.2 (Nat.le_trans (Nat.mul_le_mul_left width hle) (holds_iff.1 h))

end TensorInference.Storage
