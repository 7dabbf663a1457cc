import NetGraph.Text.Debug
import NetGraph.Yaml.Plain
import NetGraph.Yaml.SyntaxError

/-!
# What is wrong with a document that is read as a value

`Mismatch` says how a node differs from what was expected there; `ReadError` adds the place, and the
failures of the document as a whole. `message` is the wording: `path: problem at line L column C`.
-/

namespace NetGraph.Yaml

/-- A step from a node to a part of it. -/
inductive Step where
  | item (index : Nat)
  | key (name : String)
  /-- The value of a key that is not written as a scalar. -/
  | unnamed
  deriving DecidableEq, Repr

/-- The way from the root to a node, the last step first. -/
abbrev Path := List Step

/-- The way in words; a dot for the root. -/
def Path.text : Path → String
  | [] => "."
  | .item i :: rest => s!"{text rest}[{i}]"
  | .key name :: rest => inner rest ++ name
  | .unnamed :: rest => inner rest ++ "?"
where
  /-- The way to the node that holds a key. -/
  inner (rest : Path) : String := if rest.isEmpty then "" else text rest ++ "."

/-- What a node turned out to be. -/
inductive Found where
  | null
  | bool (b : Bool)
  | int (n : Int)
  | float (x : FloatValue)
  | text (s : String)
  | sequence
  | mapping
  deriving DecidableEq, Repr

def FloatValue.text : FloatValue → String
  | .finite negative x => (if negative then "-" else "") ++ x.positional
  | .infinite negative => if negative then "-inf" else "inf"
  | .nan => "NaN"

/-- Whether a number is below those of 64 bits with a sign. -/
def isBelow64 (n : Int) : Bool := n < -0x8000000000000000

/-- Whether a number is above those of 64 bits without a sign. -/
def isAbove64 (n : Int) : Bool := 0x10000000000000000 ≤ n

def Found.describe : Found → String
  | null => "unit value"
  | bool b => if b then "boolean `true`" else "boolean `false`"
  | int n =>
    -- beyond 64 bits the width is told
    let width := if isBelow64 n then " as i128" else if isAbove64 n then " as u128" else ""
    s!"integer `{n}`{width}"
  | float x => s!"floating point `{x.text}`"
  | text s => s!"string {Text.debug s}"
  | sequence => "sequence"
  | mapping => "map"

/-- How a node differs from what was expected. -/
inductive Mismatch where
  | kind (found : Found) (expected : String)
  | value (text expected : String)
  | missingField (name : String)
  | duplicateField (name : String)
  | unknownVariant (name : String) (known : List String)
  /-- None of the forms of a type that has several. -/
  | noForm (typeName : String)
  /-- A tag of its own where plain data is expected. -/
  | tagged
  deriving DecidableEq, Repr

/-- The names in backticks: one, two with "or", or more after "one of". -/
def oneOf (names : List String) : String :=
  let quoted := names.map fun n => "`" ++ n ++ "`"
  match quoted with
  | [a] => a
  | [a, b] => a ++ " or " ++ b
  | more => "one of " ++ String.intercalate ", " more

def Mismatch.message : Mismatch → String
  | kind found expected => s!"invalid type: {found.describe}, expected {expected}"
  | value text expected => s!"invalid value: string {Text.debug text}, expected {expected}"
  | missingField name => s!"missing field `{name}`"
  | duplicateField name => s!"duplicate field `{name}`"
  | unknownVariant name known => s!"unknown variant `{name}`, expected {oneOf known}"
  | noForm typeName => s!"data did not match any variant of untagged enum {typeName}"
  | tagged => "untagged and internally tagged enums do not support enum input"

/-- Why a document could not be read as a value. -/
inductive ReadError where
  | malformed (error : SyntaxError)
  /-- The place is known once the reading of the node around the mismatch has failed. -/
  | mismatch (what : Mismatch) (place : Option (Mark × Path))
  | endOfText
  | moreThanOneDocument
  | tooDeep (mark : Mark)
  | tooManyRepetitions
  deriving DecidableEq, Repr

namespace ReadError

def message : ReadError → String
  | malformed error => error.message
  | mismatch what none => what.message
  | mismatch what (some (mark, path)) =>
    (if path.isEmpty then "" else path.text ++ ": ") ++ what.message ++ mark.suffix
  | endOfText => "EOF while parsing a value"
  | moreThanOneDocument =>
    "deserializing from YAML containing more than one document is not supported"
  | tooDeep mark => "recursion limit exceeded" ++ mark.suffix
  | tooManyRepetitions => "repetition limit exceeded"

/-- Gives a mismatch its place, unless it has one. -/
def placeAt (mark : Mark) (path : Path) : ReadError → ReadError
  | mismatch what none => mismatch what (some (mark, path))
  | e => e

end ReadError
end NetGraph.Yaml
