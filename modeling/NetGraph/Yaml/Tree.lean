import NetGraph.Yaml.Node
import NetGraph.Yaml.Value

/-!
# The tree of a written value

`Value.node` is the tree that the text of a value is read as, without the places in the text. A text
keeps the style in which it is written, so that a quoted one is told from a plain one; booleans and
numbers are plain.
-/

namespace NetGraph.Yaml.Value

mutual

/-- The tree of a value. -/
def node : Value → Node
  | text s => .scalar { mark := {} } (Style.of s) s
  | bool b => .scalar { mark := {} } .plain (if b then "true" else "false")
  | nat n => .scalar { mark := {} } .plain (toString n)
  | seq items => .sequence { mark := {} } (nodes items)
  | map entries => .mapping { mark := {} } (entryNodes entries)

def nodes : List Value → List Node
  | [] => []
  | v :: rest => v.node :: nodes rest

def entryNodes : List (String × Value) → List (Node × Node)
  | [] => []
  | (k, v) :: rest => (node (.text k), v.node) :: entryNodes rest

end

/-- The document of a value. -/
def document (v : Value) : Document := { root := v.node }

end NetGraph.Yaml.Value
