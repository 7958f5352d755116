import DotLang.Listing.Lines
import DotLang.Text.Escape

/-!
# The text of a graph

The lines of a graph as text. Names and texts of attributes stand in quotes, keys
do not, and a tab is put before a line for each step of its depth.

* `Line.chars`: a line with the newline at its end;
* `Graph.pieces`: the text of a graph line by line;
* `Graph.text`: the whole text, without a newline at its end.
-/

namespace DotLang

/-- An attribute and its text in quotes. -/
def attributeChars (entry : String × String) : List Char :=
  entry.1.toList ++ '=' :: quoted entry.2

/-- A list of attributes in brackets. -/
def bracketChars (entries : List (String × String)) : List Char :=
  '[' :: ([',', ' '].intercalate (entries.map attributeChars) ++ [']'])

/-- A space and a list of attributes in brackets, unless the list is empty. -/
def suffixChars (entries : List (String × String)) : List Char :=
  if entries.isEmpty then [] else ' ' :: bracketChars entries

/-- The edge operator of directed and of undirected graphs. -/
def operatorChars (directed : Bool) : List Char := if directed then ['-', '>'] else ['-', '-']

/-- What a line says, as text. -/
def Item.chars (directed : Bool) : Item → List Char
  | assign key text => attributeChars (key, text) ++ [';']
  | defaults keyword entries => keyword.toList ++ ' ' :: bracketChars entries ++ [';']
  | node id entries => quoted id ++ suffixChars entries ++ [';']
  | edge tail head entries =>
    quoted tail ++ ' ' :: operatorChars directed ++ ' ' :: quoted head ++ suffixChars entries
      ++ [';']
  | opening (some name) => "subgraph ".toList ++ quoted name ++ [' ', '\x7b']
  | opening none => "subgraph ".toList ++ ['\x7b']
  | closing => ['\x7d']

/-- A line with the newline at its end. -/
def Line.chars (directed : Bool) (l : Line) : List Char :=
  List.replicate l.depth '\t' ++ l.item.chars directed ++ ['\n']

namespace Graph

/-- The first line of the text, up to the opening brace. -/
def titleChars (g : Graph) : List Char :=
  (if g.strict then "strict ".toList else [])
    ++ (if g.directed then "digraph".toList else "graph".toList)
    ++ g.name.elim [] (fun name => ' ' :: quoted name)
    ++ [' ', '\x7b', '\n']

/-- The text of a graph line by line. -/
def pieces (g : Graph) : List (List Char) :=
  g.titleChars :: (g.lines.map (Line.chars g.directed) ++ [['\x7d']])

/-- The text of a graph as characters. -/
def chars (g : Graph) : List Char := g.pieces.flatten

/-- The text of a graph. -/
def text (g : Graph) : String := String.ofList g.chars

end Graph

end DotLang
