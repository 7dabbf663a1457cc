/-!
# JSON values

* `Json` : a value of JSON with integers only; the fields of an object in order;
* `Json.pretty` : its text on several lines, two blanks for each level.
-/

namespace NetGraph

/-- A value of JSON. -/
inductive Json where
  | null
  | bool (b : Bool)
  | int (n : Int)
  | text (s : String)
  | list (items : List Json)
  | object (fields : List (String × Json))
  deriving Repr, Inhabited

namespace Json

/-- A character between the quotes. -/
def escaped (c : Char) : String :=
  match c with
  | '"' => "\\\""
  | '\\' => "\\\\"
  | '\x08' => "\\b"
  | '\t' => "\\t"
  | '\n' => "\\n"
  | '\x0c' => "\\f"
  | '\r' => "\\r"
  | c =>
    if c.toNat < 0x20 then
      let ds := Nat.toDigits 16 c.toNat
      "\\u" ++ String.ofList (List.replicate (4 - ds.length) '0' ++ ds)
    else c.toString

def quoted (s : String) : String := "\"" ++ String.join (s.toList.map escaped) ++ "\""

/-- A new line that is set in by `depth` levels. -/
def lineStart (depth : Nat) : String := "\n" ++ String.ofList (List.replicate (2 * depth) ' ')

mutual

/-- The text of a value inside of `depth` levels. -/
def prettyAt (depth : Nat) : Json → String
  | null => "null"
  | bool b => if b then "true" else "false"
  | int n => toString n
  | text s => quoted s
  | list items =>
    if items.isEmpty then "[]" else "[" ++ prettyItems depth "" items ++ lineStart depth ++ "]"
  | object fields =>
    if fields.isEmpty then "\x7b\x7d"
    else "\x7b" ++ prettyFields depth "" fields ++ lineStart depth ++ "\x7d"

/-- The items of a list, with `before` in front of the next one. -/
def prettyItems (depth : Nat) (before : String) : List Json → String
  | [] => ""
  | v :: rest =>
    before ++ lineStart (depth + 1) ++ prettyAt (depth + 1) v ++ prettyItems depth "," rest

/-- The fields of an object, with `before` in front of the next one. -/
def prettyFields (depth : Nat) (before : String) : List (String × Json) → String
  | [] => ""
  | (k, v) :: rest =>
    before ++ lineStart (depth + 1) ++ quoted k ++ ": " ++ prettyAt (depth + 1) v
      ++ prettyFields depth "," rest

end

/-- The text of a value on lines of their own. -/
def pretty (v : Json) : String := prettyAt 0 v

end Json
end NetGraph
