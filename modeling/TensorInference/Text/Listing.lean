/-!
# Lists in messages

A list is written with a comma and a space between its items, inside a pair of brackets.  Shapes
and axis sets take braces, lists of requested axes take square brackets.
-/

namespace TensorInference.Text

/-- The items, separated by a comma and a space. -/
def commaSeparated (items : List String) : String :=
  ", ".intercalate items

/-- The items between braces. -/
def braced (items : List String) : String :=
  "\x7b" ++ commaSeparated items ++ "\x7d"

/-- The items between square brackets. -/
def bracketed (items : List String) : String :=
  "[" ++ commaSeparated items ++ "]"

end TensorInference.Text
