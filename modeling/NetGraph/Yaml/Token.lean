import NetGraph.Yaml.Cursor
import NetGraph.Yaml.Style
import NetGraph.Yaml.Tag

/-!
# Tokens
-/

namespace NetGraph.Yaml

/-- The kinds of tokens; those of block collections are implied by indentation. -/
inductive TokenKind where
  | streamEnd
  | versionDirective (major minor : Nat)
  | tagDirective (handle : String) (start : Tag)
  | documentStart
  | documentEnd
  | blockSequenceStart
  | blockMappingStart
  | blockEnd
  | flowSequenceStart
  | flowSequenceEnd
  | flowMappingStart
  | flowMappingEnd
  | blockEntry
  | flowEntry
  | key
  | value
  | reference (name : String)
  | anchor (name : String)
  | tag (handle : String) (rest : Tag)
  | scalar (text : String) (style : Style)
  deriving DecidableEq, Repr

/-- A token, from its first character to the place after its last. -/
structure Token where
  kind : TokenKind
  start : Mark
  stop : Mark
  deriving DecidableEq, Repr

end NetGraph.Yaml
