import NetGraph.Yaml.SyntaxError
import NetGraph.Yaml.Token

/-!
# Reading directives, anchors and tags

`readDirective`, `readAnchor` and `readTag` read one token each. A tag is a handle and the rest of the
name, with the bytes that its percent escapes spell.
-/

namespace NetGraph.Yaml

/-! ## Tags -/

/-- The byte after a percent sign. -/
def escapedByte? (c : Cursor) : Option UInt8 :=
  match c.rest with
  | '%' :: a :: b :: _ => do return (16 * (← hexValue? a) + (← hexValue? b)).toUInt8
  | _ => none

/-- How many bytes the UTF-8 form of a character has, by its first byte. -/
def sequenceLength? (b : UInt8) : Option Nat :=
  if b < 0x80 then some 1
  else if 0xC0 ≤ b ∧ b < 0xE0 then some 2
  else if 0xE0 ≤ b ∧ b < 0xF0 then some 3
  else if 0xF0 ≤ b ∧ b < 0xF8 then some 4
  else none

/-- What goes on in a tag, for the wording of failures. -/
def tagActivity (directive : Bool) : Activity := if directive then .tagDirectiveText else .tagText

/-- The remaining `n` bytes of an escaped character. -/
def readTrailingBytes (activity : Activity) (start : Mark) :
    Nat → Cursor → Except SyntaxError (List UInt8 × Cursor)
  | 0, c => pure ([], c)
  | n + 1, c =>
    match escapedByte? c with
    | none => refuse .noEscapedByte c activity start
    | some b =>
      if 0x80 ≤ b ∧ b < 0xC0 then do
        let (bytes, c) ← readTrailingBytes activity start n (c.skipMany 3)
        return (b :: bytes, c)
      else refuse .badTrailingByte c activity start

/-- A character as percent escapes of its UTF-8 form, of which only the length is checked. -/
def readEscapedChar (activity : Activity) (start : Mark) (c : Cursor) :
    Except SyntaxError (List UInt8 × Cursor) :=
  match escapedByte? c with
  | none => refuse .noEscapedByte c activity start
  | some b => match sequenceLength? b with
    | none => refuse .badLeadingByte c activity start
    | some n => do
      let (bytes, c) ← readTrailingBytes activity start (n - 1) (c.skipMany 3)
      return (b :: bytes, c)

/-- The characters of a tag; three more between angle brackets and in directives. -/
def isTagChar (verbatim : Bool) (c : Char) : Bool :=
  isWordChar c
    || c ∈ [';', '/', '?', ':', '@', '&', '=', '+', '$', '.', '%', '!', '~', '*', '\'', '(', ')']
    || (verbatim && c ∈ [',', '[', ']'])

/-- Characters and escapes of a tag. -/
def readTagChars (verbatim : Bool) (activity : Activity) (start : Mark) :
    Nat → List UInt8 → Cursor → Except SyntaxError (List UInt8 × Cursor)
  | 0, acc, c => pure (acc, c)
  | fuel + 1, acc, c =>
    match c.head? with
    | none => pure (acc, c)
    | some x =>
      if !isTagChar verbatim x then pure (acc, c)
      else if x == '%' then do
        let (bytes, c) ← readEscapedChar activity start c
        readTagChars verbatim activity start fuel (acc ++ bytes) c
      else readTagChars verbatim activity start fuel (acc ++ [x.toNat.toUInt8]) c.skip

/-- The rest of a tag after `head`, whose first character is not part of it. -/
def readTagText (verbatim directive : Bool) (head : List Char) (start : Mark) (c : Cursor) :
    Except SyntaxError (Tag × Cursor) := do
  let (bytes, stop) ← readTagChars verbatim (tagActivity directive) start (c.bound + 1) [] c
  if head.isEmpty && bytes.isEmpty then refuse .noTagText stop (tagActivity directive) start
  else return ((Tag.ofString (String.ofList (head.drop 1)) ++ ⟨bytes⟩).cut, stop)

/-- `!`, `!word` or `!word!` -/
def readTagHandle (directive : Bool) (start : Mark) (c : Cursor) :
    Except SyntaxError (List Char × Cursor) :=
  if !c.startsWith '!' then
    refuse .noExclamationMark c (if directive then .tagDirectiveHandle else .tag) start
  else
    let (word, c) := c.skip.takeWhile isWordChar
    if c.startsWith '!' then pure ('!' :: word ++ ['!'], c.skip)
    else if directive && !word.isEmpty then
      refuse .noExclamationMark c .tagDirectiveEnd start
    else pure ('!' :: word, c)

/-- Handle and rest of a tag. -/
def readTagParts (start : Mark) (c : Cursor) :
    Except SyntaxError (List Char × Tag × Cursor) := do
  if c.ahead 1 == some '<' then
    let (text, c) ← readTagText true false [] start (c.skipMany 2)
    if c.startsWith '>' then return ([], text, c.skip)
    else refuse .noClosingBracket c .tag start
  else
    let (handle, c) ← readTagHandle false start c
    if handle.length > 1 && handle.getLast? == some '!' then
      let (text, c) ← readTagText false false [] start c
      return (handle, text, c)
    else
      let (text, c) ← readTagText false false handle start c
      -- the single mark is a tag of its own
      if text = {} then return ([], .ofString "!", c) else return (['!'], text, c)

/-- A tag, from its first mark on. -/
def readTag (inFlow : Bool) (c : Cursor) : Except SyntaxError (Token × Cursor) := do
  let start := c.mark
  let (handle, text, c) ← readTagParts start c
  if !(inFlow && c.startsWith ',') && !isBlankOrEnd c.head? then
    refuse .noWhitespaceOrBreak c .tag start
  else return (⟨.tag (String.ofList handle) text, start, c.mark⟩, c)

/-! ## Anchors and aliases -/

/-- The characters that may follow a name at once. -/
def endsAnchor (x : Option Char) : Bool :=
  isBlankOrEnd x || x.any (· ∈ ['?', ':', ',', ']', '}', '%', '@', '`'])

/-- An anchor or an alias, from its mark on. -/
def readAnchor (isReference : Bool) (c : Cursor) : Except SyntaxError (Token × Cursor) :=
  let start := c.mark
  let (name, c) := c.skip.takeWhile isWordChar
  if name.isEmpty || !endsAnchor c.head? then
    refuse .noAnchorName c (if isReference then .reference else .anchor) start
  else
    let name := String.ofList name
    pure (⟨if isReference then .reference name else .anchor name, start, c.mark⟩, c)

/-! ## Directives -/

/-- A number of a version, of nine digits at most. -/
def readVersionNumber (start : Mark) (c : Cursor) : Except SyntaxError (Nat × Cursor) :=
  let (ds, stop) := c.takeWhile Char.isDigit
  if ds.length > 9 then refuse .longVersion (c.skipMany 9) .versionDirective start
  else if ds.isEmpty then refuse .noVersion stop .versionDirective start
  else pure (ds.foldl (fun n d => 10 * n + (d.toNat - '0'.toNat)) 0, stop)

/-- `1.2` -/
def readVersion (start : Mark) (c : Cursor) : Except SyntaxError (TokenKind × Cursor) := do
  let (major, c) ← readVersionNumber start (c.skipWhile isBlank)
  if !c.startsWith '.' then refuse .noVersionPoint c .versionDirective start
  else
    let (minor, c) ← readVersionNumber start c.skip
    return (.versionDirective major minor, c)

/-- `!handle! start` -/
def readTagDirective (start : Mark) (c : Cursor) : Except SyntaxError (TokenKind × Cursor) := do
  let (handle, c) ← readTagHandle true start (c.skipWhile isBlank)
  if !c.head?.any isBlank then refuse .noWhitespace c .tagDirective start
  else
    let (text, c) ← readTagText true true [] start (c.skipWhile isBlank)
    if !isBlankOrEnd c.head? then refuse .noWhitespaceOrBreak c .tagDirective start
    else return (.tagDirective (String.ofList handle) text, c)

/-- A directive, from its percent sign to the end of its line. -/
def readDirective (c : Cursor) : Except SyntaxError (Token × Cursor) := do
  let start := c.mark
  let (name, c) := c.skip.takeWhile isWordChar
  if name.isEmpty then refuse .noDirectiveName c .directive start
  else if !isBlankOrEnd c.head? then refuse .badDirectiveName c .directive start
  else
    let (kind, c) ←
      if name = "YAML".toList then readVersion start c
      else if name = "TAG".toList then readTagDirective start c
      else refuse .unknownDirective c .directive start
    let stop := c.mark
    let c := c.skipWhile isBlank
    let c := if c.startsWith '#' then c.skipLine else c
    if !isBreakOrEnd c.head? then refuse .noLineEnd c .directive start
    else return (⟨kind, start, stop⟩, c.skipBreak)

end NetGraph.Yaml
