/-!
# The names of tags

A `Tag` is a name in bytes, for the percent escapes of a tag may spell bytes that are no text.

* `Tag.core` : the tags of null, booleans, numbers and texts;
* `Tag.ownName?` : the name that a document gives by a tag of its own, which starts with `!`;
* `Tag.cut` : the name up to a zero byte.
-/

namespace NetGraph.Yaml

/-- The name of a tag. -/
structure Tag where
  bytes : List UInt8 := []
  deriving DecidableEq, Repr, Inhabited

namespace Tag

/-- The tag with this name. -/
def ofString (name : String) : Tag := ⟨name.toUTF8.data.toList⟩

/-- One name after another. -/
def append (a b : Tag) : Tag := ⟨a.bytes ++ b.bytes⟩

instance : Append Tag := ⟨append⟩

/-- Starts the names of the tags that every document knows. -/
def coreStart : String := "tag:yaml.org,2002:"

/-- The tag of null, of booleans, of numbers or of texts. -/
def core (name : String) : Tag := ofString (coreStart ++ name)

/-- The byte that starts a tag of the document's own. -/
def mark : UInt8 := 0x21

/-- Whether a tag is one of the document's own. -/
def isOwn (t : Tag) : Bool := t.bytes.head? = some mark

/-- The text of a name, if it is one. -/
def text? (t : Tag) : Option String := String.fromUTF8? ⟨t.bytes.toArray⟩

/-- The name that a tag of the document's own gives: what follows the mark, else the mark itself. -/
def ownName? (t : Tag) : Option String :=
  match t.bytes with
  | [] => none
  | b :: rest => if b ≠ mark then none else (if rest.isEmpty then t else ⟨rest⟩).text?

/-- A zero byte ends a name. -/
def cut (t : Tag) : Tag := ⟨t.bytes.takeWhile (· ≠ 0)⟩

end Tag
end NetGraph.Yaml
