import TensorInference.Decimal.Notation
import TensorInference.Document.Token
import TensorInference.Tensor.Basic
import TensorInference.Text.Quoted

/-!
# Why a document is refused

A document is malformed, or it is well formed up to a value that is not what its place asks for.  An
error of the second sort has a text.  It says what was found and what was expected; a list or a map
is only named, since it is refused at its opening bracket.
-/

namespace TensorInference.Document

/-- What a place in a document asks for. -/
inductive Expected where
  /-- A count, an extent or an axis. -/
  | count
  /-- An element of a tensor. -/
  | element (t : ElementType)
  | text
  | list
  | tensor
  deriving DecidableEq, Repr

def Expected.message : Expected → String
  | count => "usize"
  | element .boolean => "a boolean"
  | element t => t.name
  | text => "a string"
  | list => "a sequence"
  | tensor => "a tensor with \"shape\" and \"data\" fields"

/-- What is found at a place in a document. -/
inductive Found where
  | null
  | boolean (value : Bool)
  | number (value : Number)
  | text (value : String)
  | list
  | map
  deriving Repr

/-- Real numbers in messages: digits are placed around a point from the fifth place after it up to
sixteen places before it, and a positive exponent has its sign. -/
def realForm : Decimal.Form := ⟨-5, 15, true⟩

def Found.message : Found → String
  | null => "null"
  | boolean value => "boolean `" ++ toString value ++ "`"
  | number (.integer value) => "integer `" ++ toString value ++ "`"
  | number (.real value) => "floating point `" ++ realForm.text value ++ "`"
  | text value => "string " ++ Text.quoted value
  | list => "sequence"
  | map => "map"

/-- What a value that begins with a token is.  Punctuation begins no value. -/
def Token.found? : Token → Option Found
  | null => some .null
  | boolean value => some (.boolean value)
  | number value => some (.number value)
  | text value => some (.text value)
  | openList => some .list
  | openMap => some .map
  | closeList | closeMap | comma | colon => none

/-- A field of a written tensor. -/
inductive Field where
  | shape
  | data
  deriving DecidableEq, Repr

def Field.name : Field → String
  | shape => "shape"
  | data => "data"

/-- Why a document is refused. -/
inductive Error where
  /-- The text is no document, or ends too early, or goes on too long. -/
  | malformed
  /-- A value of another kind was expected. -/
  | wrongKind (found : Found) (expected : Expected)
  /-- An integer is out of range. -/
  | outOfRange (value : Int) (expected : Expected)
  /-- A text is no name of an element type. -/
  | unknownElementType (name : String)
  | missingField (field : Field)
  | duplicateField (field : Field)
  | unknownField (key : String)
  /-- The fields do not make a tensor. -/
  | badTensor (error : DataError)
  deriving Repr

/-- The text of an error, if it has one. -/
def Error.message? : Error → Option String
  | malformed => none
  | wrongKind found expected =>
    some ("invalid type: " ++ found.message ++ ", expected " ++ expected.message)
  | outOfRange value expected =>
    some ("invalid value: " ++ (Found.number (.integer value)).message ++ ", expected " ++
      expected.message)
  | unknownElementType name => some (ElementType.unknownNameMessage name)
  | missingField field => some ("missing field `" ++ field.name ++ "`")
  | duplicateField field => some ("duplicate field `" ++ field.name ++ "`")
  | unknownField key =>
    some ("unknown field `" ++ key ++ "`, expected `" ++ Field.data.name ++ "` or `" ++
      Field.shape.name ++ "`")
  | badTensor error => error.message?

/-- The error at a token that does not begin a value of the expected kind. -/
def Token.refuse (t : Token) (expected : Expected) : Error :=
  match t.found? with
  | some found => .wrongKind found expected
  | none => .malformed

end TensorInference.Document
