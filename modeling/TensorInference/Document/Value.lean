import TensorInference.Document.Token

/-!
# Values of documents

A document holds one value: a scalar, a list of values, or a map whose entries have a key and a
value each.  The entries of a map stand in the order in which they are written, and nothing keeps a
key from coming twice.

A value is not built when a document is read, since reading goes from token to token.  It is what a
well-formed document says, and `tokens` are how it says it.
-/

namespace TensorInference.Document

/-- A value of a document. -/
inductive Value where
  | null
  | boolean (value : Bool)
  | number (value : Number)
  | text (value : String)
  | list (values : List Value)
  | map (entries : List (String × Value))

/-- Further items up to a closing bracket, each of them behind a comma. -/
def closeMore (last : Token) : List (List Token) → List Token
  | [] => [last]
  | item :: items => .comma :: (item ++ closeMore last items)

/-- Items between two brackets, with commas between them. -/
def enclose (first last : Token) : List (List Token) → List Token
  | [] => [first, last]
  | item :: items => first :: (item ++ closeMore last items)

namespace Value

/-- A count as a value. -/
def count (n : Nat) : Value :=
  number (.integer n)

/-- The token that a value begins with. -/
def head : Value → Token
  | null => .null
  | boolean value => .boolean value
  | number value => .number value
  | text value => .text value
  | list _ => .openList
  | map _ => .openMap

mutual

/-- The tokens of a value. -/
def tokens : Value → List Token
  | null => [.null]
  | boolean value => [.boolean value]
  | number value => [.number value]
  | text value => [.text value]
  | list values => enclose .openList .closeList (tokensOfEach values)
  | map entries => enclose .openMap .closeMap (tokensOfEachEntry entries)

/-- The tokens of each of some values. -/
def tokensOfEach : List Value → List (List Token)
  | [] => []
  | value :: values => tokens value :: tokensOfEach values

/-- The tokens of each of some entries. -/
def tokensOfEachEntry : List (String × Value) → List (List Token)
  | [] => []
  | entry :: entries => tokensOfEntry entry :: tokensOfEachEntry entries

/-- The tokens of an entry: its key, a colon and its value. -/
def tokensOfEntry : String × Value → List Token
  | (key, value) => .text key :: .colon :: tokens value

end

/-- The tokens of entries that others follow, each of them up to its comma. -/
def leadingTokens (entries : List (String × Value)) : List Token :=
  entries.flatMap fun entry => tokensOfEntry entry ++ [.comma]

theorem tokensOfEach_eq_map (values : List Value) : tokensOfEach values = values.map tokens := by
  induction values with
  | nil => rfl
  | cons value values ih => rw [tokensOfEach, List.map_cons, ih]

theorem tokensOfEachEntry_eq_map (entries : List (String × Value)) :
    tokensOfEachEntry entries = entries.map tokensOfEntry := by
  induction entries with
  | nil => rfl
  | cons entry entries ih => rw [tokensOfEachEntry, List.map_cons, ih]

theorem tokens_list (values : List Value) :
    (list values).tokens = enclose .openList .closeList (values.map tokens) := by
  rw [tokens, tokensOfEach_eq_map]

theorem tokens_map (entries : List (String × Value)) :
    (map entries).tokens = enclose .openMap .closeMap (entries.map tokensOfEntry) := by
  rw [tokens, tokensOfEachEntry_eq_map]

theorem tokensOfEntry_mk (key : String) (value : Value) :
    tokensOfEntry (key, value) = .text key :: .colon :: value.tokens := by
  rw [tokensOfEntry]

theorem leadingTokens_cons (entry : String × Value) (entries : List (String × Value)) :
    leadingTokens (entry :: entries) = tokensOfEntry entry ++ .comma :: leadingTokens entries := by
  rw [leadingTokens, List.flatMap_cons, List.append_assoc, List.singleton_append, leadingTokens]

end Value

end TensorInference.Document
