/-!
# Styles of scalars
-/

namespace NetGraph.Yaml

/-- How a scalar is set in the text. -/
inductive Style where
  | plain
  | singleQuoted
  | doubleQuoted
  | literal
  | folded
  deriving DecidableEq, Repr

end NetGraph.Yaml
