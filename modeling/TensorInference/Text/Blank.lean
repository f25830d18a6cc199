/-!
# Blank characters

The characters with the `White_Space` property of the Unicode standard, and trimming by it.  The
zero-width space and the byte order mark do not have the property.
-/

namespace TensorInference.Text

/-- The ranges of code points with the `White_Space` property, both ends included. -/
def blankRanges : List (Nat × Nat) :=
  [(0x09, 0x0D), (0x20, 0x20), (0x85, 0x85), (0xA0, 0xA0), (0x1680, 0x1680), (0x2000, 0x200A),
    (0x2028, 0x2029), (0x202F, 0x202F), (0x205F, 0x205F), (0x3000, 0x3000)]

/-- Whether a character has the `White_Space` property. -/
def isBlank (c : Char) : Bool :=
  blankRanges.any fun (low, high) => low ≤ c.toNat && c.toNat ≤ high

theorem isBlank_of_isWhitespace {c : Char} (h : c.isWhitespace = true) : isBlank c = true := by
  simp only [Char.isWhitespace, Bool.or_eq_true, decide_eq_true_eq] at h
  rcases h with ((rfl | rfl) | rfl) | rfl <;> decide

/-- The characters of a text, without the blank ones at both ends. -/
def trim (text : String) : List Char :=
  ((text.toList.dropWhile isBlank).reverse.dropWhile isBlank).reverse

/-- A text without blank characters at its ends and with its ASCII capitals made small. -/
def normalized (text : String) : String :=
  String.ofList ((trim text).map Char.toLower)

end TensorInference.Text
