import TensorInference.Operator.Basic

/-!
# Events of inference

What inference and graph building report while they run.  An event is a plain value that says what
happened; its level and its text are functions of it.

Only the operators that take axes report anything on their own: while the rank of the input is not
known, the requested axes cannot be checked, and a reduction says besides that the rank is
missing.
-/

namespace TensorInference

/-- How much an event matters, the least first. -/
inductive Event.Level where
  | trace
  | debug
  | info
  | warn
  deriving DecidableEq, Repr

/-- What is reported. -/
inductive Event where
  /-- Requested axes are not checked, since the rank is not known. -/
  | axesDeferred (requests : List Int)
  /-- A reduction has an input of unknown rank. -/
  | rankUnknown (reduction : Reduction)
  /-- An operator was added to a graph at a position. -/
  | added (position : Nat) (name : String) (op : Operator) (output : TensorInfo)
  /-- The output of an operator could not be inferred. -/
  | rejected (name : String) (error : InferError)
  /-- A setting of the diagnostic level means nothing. -/
  | unknownLevel (value : String)
  /-- A flag has a value that means neither yes nor no. -/
  | unknownFlag (setting : String) (value : String)
  deriving DecidableEq, Repr

namespace Event

def level : Event → Level
  | axesDeferred _ => .trace
  | rankUnknown _ => .debug
  | added .. => .info
  | rejected .. => .warn
  | unknownLevel _ => .warn
  | unknownFlag .. => .warn

def Level.name : Level → String
  | trace => "trace"
  | debug => "debug"
  | info => "info"
  | warn => "warn"

def message : Event → String
  | axesDeferred _ => "deferring axis validation until rank is known"
  | rankUnknown _ => "input rank is unknown"
  | added _ _ op output => op.name ++ " -> " ++ output.text
  | rejected _ error => error.message
  | unknownLevel _ => "unrecognized TESSERA_DIAGNOSTICS level"
  | unknownFlag .. => "unrecognized boolean value"

end Event

/-- What checking requested axes reports. -/
def AxisSet.requestEvents (rank : Option Nat) (requests : List Int) : List Event :=
  if rank.isNone then [.axesDeferred requests] else []

/-- What resolving the axes of a reversal reports. -/
def ReversedAxes.events (rank : Option Nat) : ReversedAxes → List Event
  | index requests => AxisSet.requestEvents rank requests
  | mask _ => []

/-- What inferring the output of an operator reports. -/
def Operator.events : Operator → List TensorInfo → List Event
  | reduce reduction requests _, [info] =>
    if reduction.supports info.elementType ∧ info.shape.rank? = none then
      [.axesDeferred requests, .rankUnknown reduction]
    else []
  | reverse axes, [info] => axes.events info.shape.rank?
  | _, _ => []

end TensorInference
