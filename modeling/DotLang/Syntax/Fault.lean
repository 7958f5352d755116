import DotLang.Attribute.Attributes
import DotLang.Source.Lexer

/-!
# Faults of a document

Why a text is no document: a token that cannot stand where it does, a port that
is assigned to, or a text that is no value of its attribute.

* `Fault.message`: the wording of every fault.
-/

namespace DotLang

/-- What could have stood at a place in a document. -/
inductive Expected where
  | graphKeyword
  | token (kind : TokenKind)
  | statement
  | endpoint
  | nodeName
  | portName
  | compassPoint
  | value
  | attributeName
  | attributeValue
  deriving DecidableEq, Repr

/-- What a message calls it. -/
def Expected.description : Expected → String
  | graphKeyword => "'graph' or 'digraph'"
  | token kind => kind.description
  | statement => "a statement"
  | endpoint => "a node or a subgraph"
  | nodeName => "a node name"
  | portName => "a port name"
  | compassPoint => "a compass point"
  | value => "a value"
  | attributeName => "an attribute name"
  | attributeValue => "an attribute value"

/-- What a message calls a token that was found. -/
def Token.description (t : Token) : String :=
  if t.isId then s!"{t.kind.description} \"{t.value}\"" else t.kind.description

/-- A reason why a text is no document. -/
inductive Fault where
  /-- A character that starts no token. -/
  | illegalCharacter (found : Token)
  /-- A token where another was expected. -/
  | unexpected (expected : Expected) (found : Token)
  /-- An assignment to a node with a port. -/
  | assignedPort
  /-- An assignment whose text is no value of its attribute. -/
  | badValue (error : AttributeError)
  deriving DecidableEq

/-- The wording of a fault. -/
def Fault.message : Fault → String
  | illegalCharacter found => s!"unexpected character '{found.value}'"
  | unexpected expected found =>
    s!"expected {expected.description}, found {found.description}"
  | assignedPort => "can't assign into a port"
  | badValue error => error.message

/-- The fault of a token where another was expected. -/
def Fault.ofToken (expected : Expected) (found : Token) : Fault :=
  if found.kind = .illegal then illegalCharacter found else unexpected expected found

/-- A fault and its place in the text. -/
structure ParseError where
  fault : Fault
  pos : Position
  deriving DecidableEq

/-- The error at a token where another was expected. -/
def ParseError.atToken (expected : Expected) (found : Token) : ParseError :=
  ⟨.ofToken expected found, found.pos⟩

end DotLang
