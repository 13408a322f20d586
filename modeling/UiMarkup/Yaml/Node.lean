/-!
# YAML nodes

The tree of a YAML document before its scalars get their values: scalars with their style, sequences
and mappings, each with an optional anchor and tag, and aliases of anchored nodes.
-/

namespace UiMarkup.Yaml

/-- The anchor and the tag of a node. -/
structure Props where
  anchor : Option String := none
  tag : Option String := none
  deriving Repr, DecidableEq

/-- A node of a document. -/
inductive Node where
  /-- A scalar; a plain one may turn out to be something else than a text. -/
  | scalar (props : Props) (plain : Bool) (text : String)
  | sequence (props : Props) (items : List Node)
  | mapping (props : Props) (entries : List (Node × Node))
  /-- Another mention of an anchored node. -/
  | reference (name : String)
  deriving Repr, Inhabited

namespace Node

/-- The node where nothing is written. -/
def empty (props : Props) : Node :=
  scalar props true ""

/-- A mapping of one entry. -/
def pair (key value : Node) : Node :=
  mapping {} [(key, value)]

end Node

end UiMarkup.Yaml
