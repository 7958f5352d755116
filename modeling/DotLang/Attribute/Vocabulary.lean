import DotLang.Attribute.Word

/-!
# The vocabularies of the language

The words that the language knows for shapes, edge styles, arrow markers, rank
directions, edge routing and rank constraints. Words are case sensitive.
-/

namespace DotLang

/-- The outline of a node. -/
inductive Shape where
  | box | rect | square | ellipse | oval | circle | doubleCircle | point | egg | triangle
  | invTriangle | diamond | trapezium | parallelogram | house | pentagon | hexagon | octagon
  | plain | plainText | none | note | tab | folder | box3d | component | cylinder | star
  | underline | record | mRecord
  deriving DecidableEq

namespace Shape

/-- All the words, in the order of their declaration. -/
def all : List Shape :=
  [.box, .rect, .square, .ellipse, .oval, .circle, .doubleCircle, .point, .egg, .triangle,
   .invTriangle, .diamond, .trapezium, .parallelogram, .house, .pentagon, .hexagon, .octagon,
   .plain, .plainText, .none, .note, .tab, .folder, .box3d, .component, .cylinder, .star,
   .underline, .record, .mRecord]

/-- The name of the word in the language. -/
def name : Shape → String
  | .box => "box"
  | .rect => "rect"
  | .square => "square"
  | .ellipse => "ellipse"
  | .oval => "oval"
  | .circle => "circle"
  | .doubleCircle => "doublecircle"
  | .point => "point"
  | .egg => "egg"
  | .triangle => "triangle"
  | .invTriangle => "invtriangle"
  | .diamond => "diamond"
  | .trapezium => "trapezium"
  | .parallelogram => "parallelogram"
  | .house => "house"
  | .pentagon => "pentagon"
  | .hexagon => "hexagon"
  | .octagon => "octagon"
  | .plain => "plain"
  | .plainText => "plaintext"
  | .none => "none"
  | .note => "note"
  | .tab => "tab"
  | .folder => "folder"
  | .box3d => "box3d"
  | .component => "component"
  | .cylinder => "cylinder"
  | .star => "star"
  | .underline => "underline"
  | .record => "record"
  | .mRecord => "Mrecord"

instance : Vocabulary Shape where
  all := all
  name := name
  mem_all k := by cases k <;> decide
  name_injective k l h := by
    revert h
    cases k <;> cases l <;> decide

end Shape

/-- The way the line of an edge is drawn. -/
inductive EdgeStyle where
  | solid | dashed | dotted | bold | invis | tapered
  deriving DecidableEq

namespace EdgeStyle

/-- All the words, in the order of their declaration. -/
def all : List EdgeStyle :=
  [.solid, .dashed, .dotted, .bold, .invis, .tapered]

/-- The name of the word in the language. -/
def name : EdgeStyle → String
  | .solid => "solid"
  | .dashed => "dashed"
  | .dotted => "dotted"
  | .bold => "bold"
  | .invis => "invis"
  | .tapered => "tapered"

instance : Vocabulary EdgeStyle where
  all := all
  name := name
  mem_all k := by cases k <;> decide
  name_injective k l h := by
    revert h
    cases k <;> cases l <;> decide

end EdgeStyle

/-- The marker at an end of an edge. -/
inductive ArrowType where
  | normal | inv | dot | invDot | oDot | invODot | none | tee | empty | invEmpty | diamond
  | oDiamond | eDiamond | crow | box | oBox | «open» | halfOpen | vee
  deriving DecidableEq

namespace ArrowType

/-- All the words, in the order of their declaration. -/
def all : List ArrowType :=
  [.normal, .inv, .dot, .invDot, .oDot, .invODot, .none, .tee, .empty, .invEmpty, .diamond,
   .oDiamond, .eDiamond, .crow, .box, .oBox, .open, .halfOpen, .vee]

/-- The name of the word in the language. -/
def name : ArrowType → String
  | .normal => "normal"
  | .inv => "inv"
  | .dot => "dot"
  | .invDot => "invdot"
  | .oDot => "odot"
  | .invODot => "invodot"
  | .none => "none"
  | .tee => "tee"
  | .empty => "empty"
  | .invEmpty => "invempty"
  | .diamond => "diamond"
  | .oDiamond => "odiamond"
  | .eDiamond => "ediamond"
  | .crow => "crow"
  | .box => "box"
  | .oBox => "obox"
  | .open => "open"
  | .halfOpen => "halfopen"
  | .vee => "vee"

instance : Vocabulary ArrowType where
  all := all
  name := name
  mem_all k := by cases k <;> decide
  name_injective k l h := by
    revert h
    cases k <;> cases l <;> decide

end ArrowType

/-- The direction in which the ranks of a graph follow one another. -/
inductive RankDir where
  | topToBottom | leftToRight | bottomToTop | rightToLeft
  deriving DecidableEq

namespace RankDir

/-- All the words, in the order of their declaration. -/
def all : List RankDir :=
  [.topToBottom, .leftToRight, .bottomToTop, .rightToLeft]

/-- The name of the word in the language. -/
def name : RankDir → String
  | .topToBottom => "TB"
  | .leftToRight => "LR"
  | .bottomToTop => "BT"
  | .rightToLeft => "RL"

instance : Vocabulary RankDir where
  all := all
  name := name
  mem_all k := by cases k <;> decide
  name_injective k l h := by
    revert h
    cases k <;> cases l <;> decide

end RankDir

/-- The way edges are routed. -/
inductive Splines where
  | none | line | polyline | curved | ortho | spline
  deriving DecidableEq

namespace Splines

/-- All the words, in the order of their declaration. -/
def all : List Splines :=
  [.none, .line, .polyline, .curved, .ortho, .spline]

/-- The name of the word in the language. -/
def name : Splines → String
  | .none => "none"
  | .line => "line"
  | .polyline => "polyline"
  | .curved => "curved"
  | .ortho => "ortho"
  | .spline => "spline"

instance : Vocabulary Splines where
  all := all
  name := name
  mem_all k := by cases k <;> decide
  name_injective k l h := by
    revert h
    cases k <;> cases l <;> decide

end Splines

/-- The rank constraint on the nodes of a subgraph. -/
inductive Rank where
  | same | min | max | source | sink
  deriving DecidableEq

namespace Rank

/-- All the words, in the order of their declaration. -/
def all : List Rank :=
  [.same, .min, .max, .source, .sink]

/-- The name of the word in the language. -/
def name : Rank → String
  | .same => "same"
  | .min => "min"
  | .max => "max"
  | .source => "source"
  | .sink => "sink"

instance : Vocabulary Rank where
  all := all
  name := name
  mem_all k := by cases k <;> decide
  name_injective k l h := by
    revert h
    cases k <;> cases l <;> decide

end Rank

end DotLang
