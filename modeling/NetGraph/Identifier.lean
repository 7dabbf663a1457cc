import NetGraph.Text.Blank

/-!
# Identifiers

Two grammars for names.

* `DnsLabel.check` : names of namespaces, pod groups and ports, `[a-z0-9]([-a-z0-9]*[a-z0-9])?`;
* `LabelPart.check` : the key and the value of a label, `[A-Za-z0-9]([A-Za-z0-9_.-]*[A-Za-z0-9])?`;
* both hold at most 63 characters, and a refusal says which rule is broken, with its `message`;
* `Framed` : the language of `tip(inner*tip)?`, and the two grammars as predicates, `IsDnsLabel` and
  `IsLabelPart`;
* `shortId` : the end of an id, for messages.
-/

namespace NetGraph

/-- The greatest number of characters of an identifier. -/
def identifierLimit : Nat := 63

/-- The words that have a `tip` at both ends and `inner` characters between: `tip(inner*tip)?`. -/
inductive Framed (tip inner : Char → Bool) : List Char → Prop where
  | single {c : Char} : tip c = true → Framed tip inner [c]
  | wide {a b : Char} {m : List Char} :
      tip a = true → (∀ c ∈ m, inner c = true) → tip b = true → Framed tip inner (a :: (m ++ [b]))

namespace DnsLabel

/-- `[a-z0-9]` -/
def isTip (c : Char) : Bool := c.isLower || c.isDigit

/-- `[-a-z0-9]` -/
def isInner (c : Char) : Bool := isTip c || c == '-'

/-- Why a text is not a DNS label. -/
inductive Fault where
  | blank
  | tooLong (value : String)
  | hyphenAtEnd (value : String)
  | strayCharacter (value : String)
  deriving DecidableEq, Repr

def Fault.message : Fault → String
  | .blank => "must not be empty"
  | .tooLong v => s!"'{v}' exceeds {identifierLimit} characters (got {v.utf8ByteSize})"
  | .hyphenAtEnd v => s!"'{v}' must not start or end with a hyphen"
  | .strayCharacter v => s!"'{v}' must contain only lowercase letters, digits, and hyphens [a-z0-9-]"

/-- The first rule that `v` breaks. Length counts the bytes of the UTF-8 form. -/
def check (v : String) : Except Fault Unit :=
  if Text.isBlank v then throw .blank
  else if v.utf8ByteSize > identifierLimit then throw (.tooLong v)
  else if v.toList.head? = some '-' ∨ v.toList.getLast? = some '-' then throw (.hyphenAtEnd v)
  else if !v.toList.all isInner then throw (.strayCharacter v)
  else pure ()

def accepts (v : String) : Bool := (check v).isOk

end DnsLabel

/-- The DNS-1123 labels of at most 63 characters. -/
def IsDnsLabel (v : String) : Prop :=
  Framed DnsLabel.isTip DnsLabel.isInner v.toList ∧ v.length ≤ identifierLimit

namespace LabelPart

/-- `[A-Za-z0-9]` -/
def isTip (c : Char) : Bool := c.isAlphanum

/-- `[A-Za-z0-9_.-]` -/
def isInner (c : Char) : Bool := c.isAlphanum || c == '-' || c == '_' || c == '.'

/-- Why a text is not a part of a label. -/
inductive Fault where
  | empty
  | tooLong (value : String)
  | badEnd (value : String)
  | strayCharacter (value : String)
  deriving DecidableEq, Repr

def Fault.message : Fault → String
  | .empty => "must not be empty"
  | .tooLong v => s!"'{v}' exceeds {identifierLimit} characters (got {v.utf8ByteSize})"
  | .badEnd v => s!"'{v}' must start and end with a letter or digit"
  | .strayCharacter v => s!"'{v}' must contain only letters, digits, '-', '_' and '.'"

/-- The first rule that `v` breaks. Length counts the bytes of the UTF-8 form. -/
def check (v : String) : Except Fault Unit :=
  if v.isEmpty then throw .empty
  else if v.utf8ByteSize > identifierLimit then throw (.tooLong v)
  else if !(v.toList.head?.any isTip && v.toList.getLast?.any isTip) then throw (.badEnd v)
  else if !v.toList.all isInner then throw (.strayCharacter v)
  else pure ()

def accepts (v : String) : Bool := (check v).isOk

end LabelPart

/-- The label keys and values of at most 63 characters, the empty one excluded. -/
def IsLabelPart (v : String) : Prop :=
  Framed LabelPart.isTip LabelPart.isInner v.toList ∧ v.length ≤ identifierLimit

/-- How many characters of an id a message shows. -/
def shortIdLength : Nat := 6

/-- The last characters of an id; all of it if it has no more. -/
def shortId (id : String) : String :=
  String.ofList (id.toList.drop (id.toList.length - shortIdLength))

end NetGraph
