import NetGraph.Yaml.Chars
import NetGraph.Yaml.Plain
import NetGraph.Yaml.Style

/-!
# Values and their written form

* `Value` : what a document is written from: texts, booleans, naturals, sequences and mappings whose
  keys are texts;
* `Style.of` : how a text is written. Plain is preferred; a text that would be read as something else
  is quoted; a text with a line feed is a literal block; what none of these can carry is written
  between double quotes with escapes;
* `Value.write` : block style, two blanks for each level, the items of a sequence not set in from
  their key, `[]` and `\x7b\x7d` when empty, no line ever folded.
-/

namespace NetGraph.Yaml

/-- What a document is written from. -/
inductive Value where
  | text (s : String)
  | bool (b : Bool)
  | nat (n : Nat)
  | seq (items : List Value)
  | map (entries : List (String × Value))
  deriving Repr

/-! ## The choice of a style -/

namespace Style

/-- Some character for which `p` holds stands right before one for which `q` holds. -/
def hasPair (p q : Char → Bool) : List Char → Bool
  | a :: b :: rest => (p a && q b) || hasPair p q (b :: rest)
  | _ => false

/-- An indicator at its start: the text would be read as another kind of token. -/
def startsWithIndicator : List Char → Bool
  | [] => false
  | c :: rest =>
    isIndicator c || ((c == '?' || c == ':' || c == '-') && isBlankOrEnd rest.head?)

/-- A colon before a blank, or a number sign after one. -/
def hasInnerIndicator : List Char → Bool
  | a :: b :: rest =>
    (b == ':' && isBlankOrEnd rest.head?) || (b == '#' && isBlankOrEnd (some a))
      || hasInnerIndicator (b :: rest)
  | _ => false

/-- `---` or `...`, which mark the ends of documents. -/
def startsWithDocumentMark : List Char → Bool
  | '-' :: '-' :: '-' :: _ | '.' :: '.' :: '.' :: _ => true
  | _ => false

/-- A blank or break at one of the ends. -/
def hasOuterSpace (cs : List Char) : Bool :=
  let isOuter (c : Char) := c == ' ' || isBreak c
  cs.head?.any isOuter || cs.getLast?.any isOuter

/-- Escapes are needed: a character that is not printable, or a space before a break. -/
def needsEscapes (cs : List Char) : Bool :=
  !cs.all isPrintable || hasPair (· == ' ') isBreak cs

def allowsPlain (cs : List Char) : Bool :=
  !(startsWithDocumentMark cs || startsWithIndicator cs || hasInnerIndicator cs
    || hasOuterSpace cs || cs.any isBreak || needsEscapes cs)

def allowsSingleQuotes (cs : List Char) : Bool :=
  !(needsEscapes cs || hasPair isBreak (· == ' ') cs)

def allowsLiteral (cs : List Char) : Bool :=
  !(needsEscapes cs || cs.getLast? = some ' ')

/-- How the text `s` is written. -/
def of (s : String) : Style :=
  let cs := s.toList
  if '\n' ∈ cs then
    if allowsLiteral cs then .literal else .doubleQuoted
  else if !needsQuotes s && allowsPlain cs then .plain
  else if allowsSingleQuotes cs then .singleQuoted
  else .doubleQuoted

end Style

/-! ## Scalars -/

/-- The blanks before a line at the column `n`. -/
def indentation (n : Nat) : String := String.ofList (List.replicate n ' ')

/-- A hexadecimal number of `width` upper-case digits. -/
def hexDigits (width n : Nat) : String :=
  let ds := (Nat.toDigits 16 n).map Char.toUpper
  String.ofList (List.replicate (width - ds.length) '0' ++ ds)

/-- A character between double quotes. -/
def escaped (c : Char) : String :=
  let n := c.toNat
  if isPrintable c && !isBreak c && c != '"' && c != '\\' then c.toString
  else match n with
    | 0x00 => "\\0"
    | 0x07 => "\\a"
    | 0x08 => "\\b"
    | 0x09 => "\\t"
    | 0x0A => "\\n"
    | 0x0B => "\\v"
    | 0x0C => "\\f"
    | 0x0D => "\\r"
    | 0x1B => "\\e"
    | 0x22 => "\\\""
    | 0x5C => "\\\\"
    | 0x85 => "\\N"
    | 0xA0 => "\\_"
    | 0x2028 => "\\L"
    | 0x2029 => "\\P"
    | _ =>
      if n ≤ 0xFF then "\\x" ++ hexDigits 2 n
      else if n ≤ 0xFFFF then "\\u" ++ hexDigits 4 n
      else "\\U" ++ hexDigits 8 n

def doubleQuoted (cs : List Char) : String := "\"" ++ String.join (cs.map escaped) ++ "\""

/-- The inside of single quotes: a quote is doubled, and the text goes on set in after a break. -/
def singleQuotedBody (indent : Nat) (afterBreak : Bool) : List Char → String
  | [] => if afterBreak then indentation indent else ""
  | c :: rest =>
    if isBreak c then c.toString ++ singleQuotedBody indent true rest
    else
      (if afterBreak then indentation indent else "")
        ++ (if c = '\'' then "''" else c.toString) ++ singleQuotedBody indent false rest

def singleQuoted (indent : Nat) (cs : List Char) : String :=
  "'" ++ singleQuotedBody indent false cs ++ "'"

/-- The lines of a literal block, set in, and ended where the text does not end with a break. -/
def literalBody (indent : Nat) (afterBreak : Bool) : List Char → String
  | [] => if afterBreak then "" else "\n"
  | c :: rest =>
    if isBreak c then c.toString ++ literalBody indent true rest
    else
      (if afterBreak then indentation indent else "") ++ c.toString
        ++ literalBody indent false rest

/-- Says the indentation where the first line would mislead, and what to do with the last breaks. -/
def literalHints (cs : List Char) : String :=
  let start := if cs.head?.any (fun c => c == ' ' || isBreak c) then "2" else ""
  let tail := match cs.reverse with
    | [] => "-"
    | c :: before =>
      if !isBreak c then "-"
      else match before with
        | [] => "+"
        | d :: _ => if isBreak d then "+" else ""
  start ++ tail

def literal (indent : Nat) (cs : List Char) : String :=
  "|" ++ literalHints cs ++ "\n" ++ literalBody indent true cs

/-- The text `s` as a scalar, up to the end of its last line; lines that follow are set in. -/
def writeText (indent : Nat) (s : String) : String :=
  let cs := s.toList
  match Style.of s with
  | .plain => s ++ "\n"
  | .singleQuoted => singleQuoted indent cs ++ "\n"
  | .doubleQuoted | .folded => doubleQuoted cs ++ "\n"
  | .literal => literal indent cs

/-- The same for a text without breaks, as a key before a colon. -/
def writeKey (s : String) : String :=
  match Style.of s with
  | .plain => s
  | .singleQuoted => singleQuoted 0 s.toList
  | .doubleQuoted | .folded | .literal => doubleQuoted s.toList

/-- The longest key in bytes that stands before its colon on one line. -/
def simpleKeyLimit : Nat := 128

/-- A key that stands before its colon on one line. -/
def isSimpleKey (s : String) : Bool := !s.toList.any isBreak && s.utf8ByteSize ≤ simpleKeyLimit

/-! ## Collections -/

namespace Value

mutual

/-- A value that starts at the column `indent` of a line that is already set in. -/
def block (indent : Nat) : Value → String
  | text s => writeText indent s
  | bool b => (if b then "true" else "false") ++ "\n"
  | nat n => toString n ++ "\n"
  | seq items => if items.isEmpty then "[]\n" else itemLines indent true items
  | map entries => if entries.isEmpty then "\x7b\x7d\n" else entryLines indent true entries

/-- The value of the key of a mapping at the column `indent`, after the colon. -/
def afterColon (indent : Nat) : Value → String
  | text s => " " ++ writeText (indent + 2) s
  | bool b => " " ++ (if b then "true" else "false") ++ "\n"
  | nat n => " " ++ toString n ++ "\n"
  | seq items => if items.isEmpty then " []\n" else "\n" ++ itemLines indent false items
  | map entries =>
    if entries.isEmpty then " \x7b\x7d\n" else "\n" ++ entryLines (indent + 2) false entries

/-- The items of a sequence at the column `indent`; `placed` if the first line is set in already. -/
def itemLines (indent : Nat) (placed : Bool) : List Value → String
  | [] => ""
  | v :: rest =>
    (if placed then "" else indentation indent) ++ "- " ++ block (indent + 2) v
      ++ itemLines indent false rest

/-- The entries of a mapping at the column `indent`; `placed` if the first line is set in already. -/
def entryLines (indent : Nat) (placed : Bool) : List (String × Value) → String
  | [] => ""
  | (k, v) :: rest =>
    (if placed then "" else indentation indent)
      ++ (if isSimpleKey k then writeKey k ++ ":" ++ afterColon indent v
        else "? " ++ writeText (indent + 2) k ++ indentation indent ++ ": " ++ block (indent + 2) v)
      ++ entryLines indent false rest

end

/-- The document that holds a value; the lines of a text are set in by one level. -/
def write : Value → String
  | text s => writeText 2 s
  | v => block 0 v

end Value
end NetGraph.Yaml
