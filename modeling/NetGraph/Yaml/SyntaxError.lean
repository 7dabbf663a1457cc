import NetGraph.Yaml.Cursor

/-!
# What is wrong with a text that is no document

`SyntaxError` says what was met and where, and what was being read and since where; `message` is its
wording.
-/

namespace NetGraph.Yaml

/-- What was being read. -/
inductive Activity where
  | nextToken | simpleKey
  | directive | versionDirective | tagDirective
  | tagDirectiveHandle | tagDirectiveEnd | tagDirectiveText
  | anchor | reference | tag | tagText
  | blockScalar | quotedScalar | quotedContent | plainScalar
  | node | blockNode | flowNode
  | blockSequence | blockMapping | flowSequence | flowMapping
  deriving DecidableEq, Repr

def Activity.text : Activity → String
  | nextToken => "while scanning for the next token"
  | simpleKey => "while scanning a simple key"
  | directive => "while scanning a directive"
  | versionDirective => "while scanning a %YAML directive"
  | tagDirective => "while scanning a %TAG directive"
  | tagDirectiveHandle => "while scanning a tag directive"
  | tagDirectiveEnd => "while parsing a tag directive"
  | tagDirectiveText => "while parsing a %TAG directive"
  | anchor => "while scanning an anchor"
  | reference => "while scanning an alias"
  | tag => "while scanning a tag"
  | tagText => "while parsing a tag"
  | blockScalar => "while scanning a block scalar"
  | quotedScalar => "while scanning a quoted scalar"
  | quotedContent => "while parsing a quoted scalar"
  | plainScalar => "while scanning a plain scalar"
  | node => "while parsing a node"
  | blockNode => "while parsing a block node"
  | flowNode => "while parsing a flow node"
  | blockSequence => "while parsing a block collection"
  | blockMapping => "while parsing a block mapping"
  | flowSequence => "while parsing a flow sequence"
  | flowMapping => "while parsing a flow mapping"

/-- What was met, or missed. -/
inductive Obstacle where
  | noColonAfterKey
  | sequenceEntryHere | mappingKeyHere | mappingValueHere
  | unknownDirective | noDirectiveName | badDirectiveName | noLineEnd
  | noVersionPoint | longVersion | noVersion | badVersion
  | duplicateVersion | duplicateTagDirective
  | noWhitespace | noWhitespaceOrBreak
  | noAnchorName
  | noExclamationMark | noClosingBracket | noTagText
  | noEscapedByte | badLeadingByte | badTrailingByte
  | undefinedHandle
  | zeroIndentation | tabInIndentation | tabInPlain
  | documentBorder | endOfText
  | unknownEscape | noHexDigit | badCodePoint
  | unexpectedColon | badStart
  | noDocumentStart | noContent | noDash | noKey
  | noCommaOrBracket | noCommaOrBrace
  deriving DecidableEq, Repr

def Obstacle.text : Obstacle → String
  | noColonAfterKey => "could not find expected ':'"
  | sequenceEntryHere => "block sequence entries are not allowed in this context"
  | mappingKeyHere => "mapping keys are not allowed in this context"
  | mappingValueHere => "mapping values are not allowed in this context"
  | unknownDirective => "found unknown directive name"
  | noDirectiveName => "could not find expected directive name"
  | badDirectiveName => "found unexpected non-alphabetical character"
  | noLineEnd => "did not find expected comment or line break"
  | noVersionPoint => "did not find expected digit or '.' character"
  | longVersion => "found extremely long version number"
  | noVersion => "did not find expected version number"
  | badVersion => "found incompatible YAML document"
  | duplicateVersion => "found duplicate %YAML directive"
  | duplicateTagDirective => "found duplicate %TAG directive"
  | noWhitespace => "did not find expected whitespace"
  | noWhitespaceOrBreak => "did not find expected whitespace or line break"
  | noAnchorName => "did not find expected alphabetic or numeric character"
  | noExclamationMark => "did not find expected '!'"
  | noClosingBracket => "did not find the expected '>'"
  | noTagText => "did not find expected tag URI"
  | noEscapedByte => "did not find URI escaped octet"
  | badLeadingByte => "found an incorrect leading UTF-8 octet"
  | badTrailingByte => "found an incorrect trailing UTF-8 octet"
  | undefinedHandle => "found undefined tag handle"
  | zeroIndentation => "found an indentation indicator equal to 0"
  | tabInIndentation => "found a tab character where an indentation space is expected"
  | tabInPlain => "found a tab character that violates indentation"
  | documentBorder => "found unexpected document indicator"
  | endOfText => "found unexpected end of stream"
  | unknownEscape => "found unknown escape character"
  | noHexDigit => "did not find expected hexadecimal number"
  | badCodePoint => "found invalid Unicode character escape code"
  | unexpectedColon => "found unexpected ':'"
  | badStart => "found character that cannot start any token"
  | noDocumentStart => "did not find expected <document start>"
  | noContent => "did not find expected node content"
  | noDash => "did not find expected '-' indicator"
  | noKey => "did not find expected key"
  | noCommaOrBracket => "did not find expected ',' or ']'"
  | noCommaOrBrace => "did not find expected ',' or '\x7d'"

/-- Why a text is no document. -/
inductive SyntaxError where
  /-- A character that no document may hold, so many bytes from the start. -/
  | forbiddenCharacter (offset : Nat)
  | unexpected (what : Obstacle) (mark : Mark) (during : Option (Activity × Mark))
  /-- An alias of no anchor before it. -/
  | unknownAnchor (mark : Mark)
  deriving DecidableEq, Repr

/-- The wording; the place where the activity started is left out where it is the place of the error. -/
def SyntaxError.message : SyntaxError → String
  | forbiddenCharacter offset =>
    "control characters are not allowed" ++ if offset = 0 then "" else s!" at position {offset}"
  | unexpected what mark during =>
    what.text ++ mark.suffix ++ match during with
      | none => ""
      | some (activity, start) =>
        ", " ++ activity.text ++
          if start.line = mark.line ∧ start.column = mark.column then "" else start.suffix
  | unknownAnchor mark => "unknown anchor" ++ mark.suffix

/-- The failure of a reader at a place, during an activity that began at `start`. -/
def refuse {α : Type} (what : Obstacle) (c : Cursor) (activity : Activity) (start : Mark) :
    Except SyntaxError α :=
  throw (.unexpected what c.mark (some (activity, start)))

end NetGraph.Yaml
