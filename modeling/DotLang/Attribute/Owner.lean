import DotLang.Attribute.Value

/-!
# Owners of attributes

Attributes belong to nodes, edges, graphs and subgraphs. Each of the four knows
some keys, whose values have a type; all other keys hold free text.

* `Owner.typeOf?`: the type of a key, if the owner knows it;
* `Owner.keys_nodup`: no key is listed twice.
-/

namespace DotLang

/-- What a set of attributes belongs to. -/
inductive Owner where
  | node | edge | graph | subgraph
  deriving DecidableEq

namespace Owner

/-- The keys that an owner knows, with the types of their values. -/
def schema : Owner → List (String × ValueType)
  | node =>
    [("shape", .shape), ("label", .text), ("color", .text), ("fillcolor", .text),
     ("fontname", .text), ("fontsize", .number)]
  | edge =>
    [("label", .text), ("color", .text), ("style", .edgeStyle), ("arrowhead", .arrowType),
     ("arrowtail", .arrowType), ("weight", .number)]
  | graph =>
    [("label", .text), ("rankdir", .rankDir), ("bgcolor", .text), ("fontname", .text),
     ("fontsize", .number), ("splines", .splines), ("nodesep", .number), ("ranksep", .number),
     ("compound", .flag)]
  | subgraph =>
    [("label", .text), ("color", .text), ("fillcolor", .text), ("bgcolor", .text),
     ("style", .text), ("fontname", .text), ("fontsize", .number), ("rank", .rank)]

/-- The type of the values of a key, if the owner knows the key. -/
def typeOf? (o : Owner) (key : String) : Option ValueType := o.schema.lookup key

/-- No owner lists a key twice. -/
theorem keys_nodup (o : Owner) : (o.schema.map Prod.fst).Nodup := by
  cases o <;> decide

end Owner

end DotLang
