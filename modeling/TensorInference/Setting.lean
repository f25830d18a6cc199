import TensorInference.Decimal.Digits
import TensorInference.Graph.Basic
import TensorInference.Text.Blank
import TensorInference.Word

/-!
# Settings

Settings are texts from the surroundings of the program.  They are read without regard to blank
characters at their ends, and words without regard to the case of ASCII letters.  A setting that is
missing takes its default in silence, one that means nothing takes it with a report.
-/

namespace TensorInference.Setting

/-- A text that says yes or no. -/
def bool? (text : String) : Option Bool :=
  let word := Text.normalized text
  if word ∈ ["1", "true", "t", "yes", "y", "on"] then some true
  else if word ∈ ["0", "false", "f", "no", "n", "off"] then some false
  else none

/-- The value of a flag, and what reading it reports. -/
def flag (setting : String) (value : Option String) (default : Bool) : Bool × List Event :=
  match value with
  | none => (default, [])
  | some text =>
    match bool? text with
    | some answer => (answer, [])
    | none => (default, [.unknownFlag setting text])

/-- A text that names a diagnostic level. -/
def level? (text : String) : Option DiagnosticLevel :=
  let word := Text.normalized text
  if word ∈ ["off", "0"] then some .off
  else if word ∈ ["warn"] then some .warn
  else if word ∈ ["info", "1"] then some .info
  else none

/-- The diagnostic level, off by default, and what reading it reports. -/
def level (value : Option String) : DiagnosticLevel × List Event :=
  match value with
  | none => (.off, [])
  | some text =>
    match level? text with
    | some level => (level, [])
    | none => (.off, [.unknownLevel text])

/-- Digits without the plus sign that may stand in front of them. -/
def unsigned : List Char → List Char
  | '+' :: digits => digits
  | digits => digits

/-- A number that fits a word, with an optional plus sign in front. -/
def word? (text : String) : Option Nat :=
  (Decimal.ofDigits? (unsigned (Text.trim text))).filter fun n => n ≤ Word.maxValue

/-- A number of threads, brought between one and the most that is allowed. -/
def threadCount? (text : String) (most : Nat) : Option Nat :=
  (word? text).map fun n => max 1 (min n (max most 1))

end TensorInference.Setting

namespace TensorInference

/-- A new graph at the level of a setting, and what reading the setting reports. -/
def Graph.ofSetting (value : Option String) : Graph × List Event :=
  let (level, report) := Setting.level value
  (Graph.new level, report)

end TensorInference
