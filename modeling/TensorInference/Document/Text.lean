import TensorInference.Document.Tensor

/-!
# Documents as texts

A text is read by splitting it into tokens and reading the tokens up to the end, and written by
writing its tokens one after the other without white space.
-/

namespace TensorInference.Document

/-- The text of a token. -/
def Token.write : Token → List Char
  | null => "null".toList
  | boolean value => (toString value).toList
  | number (.integer value) => (toString value).toList
  | number (.real value) => (realForm.text value).toList
  | text value => '"' :: value.toList.flatMap Quotation.escaped ++ ['"']
  | openList => ['[']
  | closeList => [']']
  | openMap => ['\x7b']
  | closeMap => ['\x7d']
  | comma => [',']
  | colon => [':']

/-- The text of tokens. -/
def write (tokens : List Token) : String :=
  String.ofList (tokens.flatMap Token.write)

/-- Reads a whole text. -/
def read {α : Type} (reader : Reader α) (text : String) : Except Error α :=
  let (tokens, complete) := Token.scan text.toList
  match reader tokens with
  | .error e => .error e
  | .ok (a, rest) => if rest.isEmpty && complete then .ok a else .error .malformed

end TensorInference.Document
