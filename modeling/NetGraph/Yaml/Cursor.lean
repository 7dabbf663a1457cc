import NetGraph.Yaml.Chars

/-!
# Places in a text

* `Mark` : a place, by bytes from the start, by line and by column in characters, all from zero;
* `Cursor` : a place with the text that follows it. `skip` passes a character of the line, `skipBreak`
  a line break, which for CR LF is two characters.
-/

namespace NetGraph.Yaml

/-- A place in a text. -/
structure Mark where
  index : Nat := 0
  line : Nat := 0
  column : Nat := 0
  deriving DecidableEq, Repr, Inhabited

namespace Mark

/-- The start of the text, which messages leave out. -/
def isOrigin (m : Mark) : Bool := m.line == 0 && m.column == 0

/-- Counted from one. -/
def text (m : Mark) : String := s!"line {m.line + 1} column {m.column + 1}"

/-- ` at line L column C`, but nothing for the start of the text. -/
def suffix (m : Mark) : String := if m.isOrigin then "" else s!" at {m.text}"

end Mark

/-- A place in a text, with the characters from there on. -/
structure Cursor where
  rest : List Char
  mark : Mark := {}
  /-- No fewer than the characters that are left: so many rounds are enough for any reader. -/
  bound : Nat := rest.length
  deriving Repr, Inhabited

namespace Cursor

/-- The character `n` places ahead. -/
def ahead (c : Cursor) (n : Nat) : Option Char := c.rest[n]?

def head? (c : Cursor) : Option Char := c.rest.head?

/-- Whether the text goes on with `x`. -/
def startsWith (c : Cursor) (x : Char) : Bool := c.head? == some x

/-- The length of a text in bytes. -/
def byteLength (cs : List Char) : Nat := cs.foldl (fun n x => n + x.utf8Size) 0

/-- Passes `n` characters that are no line breaks. -/
def skipMany (c : Cursor) (n : Nat) : Cursor :=
  { c with
    rest := c.rest.drop n
    mark := { c.mark with
      index := c.mark.index + byteLength (c.rest.take n)
      column := c.mark.column + n } }

/-- Passes a character that is no line break. -/
def skip (c : Cursor) : Cursor := c.skipMany 1

/-- Passes a line break; gives it back as LF, or as LS or PS. At any other place, does nothing. -/
def takeBreak (c : Cursor) : List Char × Cursor :=
  let next (n : Nat) (rest : List Char) : Cursor :=
    { c with rest, mark := { index := c.mark.index + n, line := c.mark.line + 1, column := 0 } }
  match c.rest with
  | '\r' :: '\n' :: rest => (['\n'], next 2 rest)
  | x :: rest =>
    if isBreak x then
      ([if x.toNat == 0x2028 || x.toNat == 0x2029 then x else '\n'], next x.utf8Size rest)
    else ([], c)
  | [] => ([], c)

def skipBreak (c : Cursor) : Cursor := c.takeBreak.2

/-- The characters of the line for which `p` holds, and the place after them. -/
def takeWhile (c : Cursor) (p : Char → Bool) : List Char × Cursor :=
  let taken := c.rest.takeWhile p
  (taken, c.skipMany taken.length)

def skipWhile (c : Cursor) (p : Char → Bool) : Cursor := (c.takeWhile p).2

/-- Passes the rest of the line, without its break. -/
def skipLine (c : Cursor) : Cursor := c.skipWhile (!isBreak ·)

/-- Whether a line starts here with the three characters `x` and a blank or the end. -/
def atDocumentMark (c : Cursor) (x : Char) : Bool :=
  c.mark.column == 0 && c.ahead 0 == some x && c.ahead 1 == some x && c.ahead 2 == some x
    && isBlankOrEnd (c.ahead 3)

/-- Whether a document starts or ends here. -/
def atDocumentBorder (c : Cursor) : Bool := c.atDocumentMark '-' || c.atDocumentMark '.'

end Cursor
end NetGraph.Yaml
