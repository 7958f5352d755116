import DotLang.Attribute.Vocabulary
import DotLang.Number.Text

/-!
# Attribute values

An attribute that the language knows has a value of a certain type. Values are
read from text and have a canonical text each.

* `ValueType.read`: reading fails only for numbers and flags;
* `ValueType.type_of_read`: a value that is read has the type asked for.
-/

namespace DotLang

/-- The types of attribute values. -/
inductive ValueType where
  | text | number | flag | shape | edgeStyle | arrowType | rankDir | splines | rank
  deriving DecidableEq

/-- An attribute value. -/
inductive Value where
  | text (s : String)
  | number (x : Number)
  | flag (b : Bool)
  | shape (w : Word Shape)
  | edgeStyle (w : Word EdgeStyle)
  | arrowType (w : Word ArrowType)
  | rankDir (w : Word RankDir)
  | splines (w : Word Splines)
  | rank (w : Word Rank)
  deriving DecidableEq

/-- What a text fails to be. -/
inductive Mismatch where
  /-- Not a finite number. -/
  | number
  /-- Not a truth value. -/
  | flag
  deriving DecidableEq

/-- The kind of text that was expected. -/
def Mismatch.expected : Mismatch → String
  | number => "number"
  | flag => "boolean"

namespace Value

/-- The type of a value. -/
def type : Value → ValueType
  | text _ => .text
  | number _ => .number
  | flag _ => .flag
  | shape _ => .shape
  | edgeStyle _ => .edgeStyle
  | arrowType _ => .arrowType
  | rankDir _ => .rankDir
  | splines _ => .splines
  | rank _ => .rank

/-- The text that a value is written as. -/
def toText : Value → String
  | text s => s
  | number x => x.text
  | flag b => if b then "true" else "false"
  | shape w => w.text
  | edgeStyle w => w.text
  | arrowType w => w.text
  | rankDir w => w.text
  | splines w => w.text
  | rank w => w.text

/-- Equality of values, numbers being compared as numbers. -/
def same : Value → Value → Bool
  | number x, number y => x.same y
  | v, w => v == w

end Value

/-- The texts that stand for a flag that is set. -/
def trueTexts : List String := ["1", "t", "T", "TRUE", "true", "True"]

/-- The texts that stand for a flag that is not set. -/
def falseTexts : List String := ["0", "f", "F", "FALSE", "false", "False"]

namespace ValueType

/-- Reads a value of the given type from a text. -/
def read : ValueType → String → Except Mismatch Value
  | text, s => .ok (.text s)
  | number, s =>
    match Number.ofText? s with
    | some x => .ok (.number x)
    | none => .error .number
  | flag, s =>
    if trueTexts.contains s then .ok (.flag true)
    else if falseTexts.contains s then .ok (.flag false)
    else .error .flag
  | shape, s => .ok (.shape (.ofText s))
  | edgeStyle, s => .ok (.edgeStyle (.ofText s))
  | arrowType, s => .ok (.arrowType (.ofText s))
  | rankDir, s => .ok (.rankDir (.ofText s))
  | splines, s => .ok (.splines (.ofText s))
  | rank, s => .ok (.rank (.ofText s))

/-- A value that is read has the type asked for. -/
theorem type_of_read {t : ValueType} {s : String} {v : Value} (h : t.read s = .ok v) :
    v.type = t := by
  cases t <;> simp only [read] at h
  case number =>
    split at h
    · cases h; rfl
    · cases h
  case flag =>
    split at h
    · cases h; rfl
    · split at h
      · cases h; rfl
      · cases h
  all_goals cases h; rfl

end ValueType

end DotLang
