/-!
# Logs

A log is a list of records. In its text each record starts a line with its level
and the part of the program that it comes from.

* `Record.text`: the text of a record.
-/

namespace DotLang

/-- How much a record matters. -/
inductive Level where
  | error | info | debug
  deriving DecidableEq, Repr

/-- The name of a level, five characters wide. -/
def Level.name : Level → String
  | error => "ERROR"
  | info => "INFO "
  | debug => "DEBUG"

/-- The parts of the program that write to the log. -/
inductive Origin where
  /-- The tool. -/
  | tool
  /-- The entry points for reading. -/
  | reading
  /-- The parser. -/
  | parsing
  /-- Writing to files. -/
  | saving
  deriving DecidableEq, Repr

/-- The name of a part of the program. -/
def Origin.name : Origin → String
  | tool => "dotfmt"
  | reading => "dotgraph::gv"
  | parsing => "dotgraph::gv::parser::parser"
  | saving => "dotgraph::core::utils"

/-- A record in a log. -/
structure Record where
  level : Level
  origin : Origin
  message : String
  deriving DecidableEq, Repr

namespace Record

/-- A message with its later lines indented. -/
def indented (message : String) : List Char :=
  message.toList.flatMap fun c => if c = '\n' then ['\n', ' ', ' ', ' ', ' '] else [c]

/-- The text of a record, with the newline at its end. -/
def text (r : Record) : String :=
  s!"[{r.level.name} {r.origin.name}] " ++ String.ofList (indented r.message ++ ['\n'])

end Record

/-- The text of a log. -/
def logText (records : List Record) : String := String.join (records.map Record.text)

end DotLang
