import TensorInference.Event

/-!
# Diagnostics

What a graph reports while it is built depends on its diagnostic level and on the names that it
has warned about: a name is warned about once.  A failure while warnings are off reports nothing
and leaves the name free for a later warning.
-/

namespace TensorInference

/-- How much a graph reports. -/
inductive DiagnosticLevel where
  /-- Nothing. -/
  | off
  /-- Nodes that could not be added. -/
  | warn
  /-- Those, and every operator that was added. -/
  | info
  deriving DecidableEq, Repr, Inhabited

/-- Levels as numbers, the quietest first. -/
def DiagnosticLevel.rank : DiagnosticLevel → Nat
  | off => 0
  | warn => 1
  | info => 2

/-- The level of a graph and the names that it has warned about. -/
structure Diagnostics where
  level : DiagnosticLevel
  warned : List String
  deriving DecidableEq, Repr

namespace Diagnostics

/-- No name is warned about at first. -/
def new (level : DiagnosticLevel) : Diagnostics := ⟨level, []⟩

instance : Inhabited Diagnostics := ⟨new .off⟩

/-- Reports of a level are enabled when the graph is at least as talkative. -/
def enabled (d : Diagnostics) (level : DiagnosticLevel) : Bool :=
  level.rank ≤ d.level.rank

/-- The report of an operator that was added. -/
def reportAdded (d : Diagnostics) (position : Nat) (name : String) (op : Operator)
    (output : TensorInfo) : List Event :=
  if d.enabled .info then [.added position name op output] else []

/-- The report of a node that could not be added, and the diagnostics after it. -/
def reportRejected (d : Diagnostics) (name : String) (error : InferError) :
    Diagnostics × List Event :=
  if d.enabled .warn ∧ name ∉ d.warned then
    (⟨d.level, name :: d.warned⟩, [.rejected name error])
  else (d, [])

end Diagnostics

end TensorInference
