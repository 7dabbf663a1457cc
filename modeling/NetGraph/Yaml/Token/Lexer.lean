import NetGraph.Yaml.Token.Property
import NetGraph.Yaml.Token.Scalar

/-!
# Tokens of a text

* `Lexer` : the place in the text with the columns of the open block collections, the possible keys of
  the open flow collections, and the tokens that are not settled yet;
* `Lexer.fetch` : reads one more token;
* `tokens` : all tokens, up to the first failure;
* `forbidden?` : the first character that no document may hold. A text is taken in pieces, and the
  character is met when the piece that holds it is taken, so what stands before that piece is read.

A key before a colon shows only at the colon. So each token that may start a key is remembered, and
the tokens from it on wait: either a colon on the same line puts the key mark in front of it, or it is
settled that there is none. A failure while tokens wait takes them with it.
-/

namespace NetGraph.Yaml

/-- A token that a key may start with. -/
structure PossibleKey where
  /-- No other token may start where the block mapping expects its keys. -/
  required : Bool
  /-- The number of the token, counted from the start of the text. -/
  number : Nat
  mark : Mark
  deriving Repr

/-- How far the text is read. -/
structure Lexer where
  cursor : Cursor
  /-- The column of the innermost block collection; -1 outside of all. -/
  indent : Int := -1
  outerIndents : List Int := []
  /-- The possible key of each open flow collection, the innermost first, and of the block at last. -/
  keys : List (Option PossibleKey) := [none]
  /-- Whether the next token may start a key. -/
  keyAllowed : Bool := true
  /-- How many tokens are settled. -/
  settled : Nat := 0
  /-- The tokens that wait, in order. -/
  waiting : List Token := []
  ended : Bool := false
  /-- A forbidden character in the piece of the text that comes after the cursor's. -/
  forbidden : Option Nat := none
  deriving Repr

/-- The longest key before a colon, in bytes. -/
def keyLimit : Nat := 1024

namespace Lexer

def inFlow (l : Lexer) : Bool := l.keys.length > 1

/-- A failure where only the place is told. -/
def refuseHere {α : Type} (l : Lexer) (what : Obstacle) : Except SyntaxError α :=
  throw (.unexpected what l.cursor.mark none)

/-- Looks `n` characters ahead, perhaps into a piece with a forbidden character. -/
def lookAhead (l : Lexer) (n : Nat) : Except SyntaxError Unit :=
  match l.forbidden with
  | some offset =>
    if (l.cursor.rest.take n).length < n then throw (.forbiddenCharacter offset) else pure ()
  | none => pure ()

def push (l : Lexer) (t : Token) : Lexer := { l with waiting := l.waiting ++ [t] }

/-- Puts a token in front of the one with this number. -/
def insertAt (l : Lexer) (number : Nat) (t : Token) : Lexer :=
  let n := number - l.settled
  { l with waiting := l.waiting.take n ++ t :: l.waiting.drop n }

/-! ## Possible keys -/

/-- The failure of a key that had to be followed by a colon. -/
def missingColon {α : Type} (l : Lexer) (k : PossibleKey) : Except SyntaxError α :=
  refuse .noColonAfterKey l.cursor .simpleKey k.mark

/-- Gives up the keys that are too far back: on an earlier line, or too long. -/
def dropStaleKeys (l : Lexer) : Except SyntaxError Lexer := do
  let here := l.cursor.mark
  let isStale (k : PossibleKey) : Bool :=
    k.mark.line < here.line || k.mark.index + keyLimit < here.index
  if !l.keys.any (·.any isStale) then return l
  -- the outermost key is judged first
  else match l.keys.reverse.findSome? fun k => k.filter fun k => isStale k && k.required with
    | some k => l.missingColon k
    | none => return { l with keys := l.keys.map fun k => k.filter (!isStale ·) }

/-- Gives up the innermost key. -/
def dropKey (l : Lexer) : Except SyntaxError Lexer :=
  match l.keys with
  | some k :: rest => if k.required then l.missingColon k else pure { l with keys := none :: rest }
  | _ => pure l

/-- Remembers that the next token may start a key. -/
def saveKey (l : Lexer) : Except SyntaxError Lexer := do
  if !l.keyAllowed then return l
  let required := !l.inFlow && l.indent = l.cursor.mark.column
  let l ← l.dropKey
  return { l with
    keys := some ⟨required, l.settled + l.waiting.length, l.cursor.mark⟩ :: l.keys.drop 1 }

/-! ## Block collections -/

/-- Opens a block collection at a column that is deeper than the present one. -/
def indentTo (l : Lexer) (column : Nat) (number : Option Nat) (kind : TokenKind) (mark : Mark) :
    Lexer :=
  if l.inFlow || l.indent ≥ column then l
  else
    let l := { l with indent := column, outerIndents := l.indent :: l.outerIndents }
    let t : Token := ⟨kind, mark, mark⟩
    match number with
    | none => l.push t
    | some n => l.insertAt n t

/-- Closes the block collections that are deeper than `column`. -/
def unindentTo (l : Lexer) (column : Int) : Lexer :=
  if l.inFlow then l
  else
    let columns := l.indent :: l.outerIndents
    let closed := columns.takeWhile (· > column)
    let kept := columns.drop closed.length
    let mark := l.cursor.mark
    { l with
      indent := kept.headD (-1), outerIndents := kept.drop 1
      waiting := l.waiting ++ closed.map fun _ => ⟨.blockEnd, mark, mark⟩ }

/-! ## Tokens -/

/-- Passes blanks, comments and line breaks, and at the start of a line a byte order mark. -/
def skipGap : Nat → Lexer → Lexer
  | 0, l => l
  | fuel + 1, l =>
    let c := l.cursor
    let c := if c.mark.column = 0 && c.startsWith byteOrderMark then c.skip else c
    let tabs := l.inFlow || !l.keyAllowed
    let c := c.skipWhile fun x => x == ' ' || (tabs && x == '\t')
    let c := if c.startsWith '#' then c.skipLine else c
    if c.head?.any isBreak then
      skipGap fuel { l with cursor := c.skipBreak, keyAllowed := l.keyAllowed || !l.inFlow }
    else { l with cursor := c }

/-- A token of `n` characters. -/
def take (l : Lexer) (n : Nat) (kind : TokenKind) : Lexer :=
  let stop := l.cursor.skipMany n
  { l.push ⟨kind, l.cursor.mark, stop.mark⟩ with cursor := stop }

def fetchStreamEnd (l : Lexer) : Except SyntaxError Lexer := do
  let m := l.cursor.mark
  let m := if m.column = 0 then m else { m with line := m.line + 1, column := 0 }
  let l := { l with cursor := { l.cursor with mark := m } }
  let l ← (l.unindentTo (-1)).dropKey
  return { l.push ⟨.streamEnd, m, m⟩ with keyAllowed := false, ended := true }

def fetchDirective (l : Lexer) : Except SyntaxError Lexer := do
  let l ← (l.unindentTo (-1)).dropKey
  let (t, c) ← readDirective l.cursor
  return { l.push t with cursor := c, keyAllowed := false }

def fetchDocumentMark (l : Lexer) (kind : TokenKind) : Except SyntaxError Lexer := do
  let l ← (l.unindentTo (-1)).dropKey
  return { l.take 3 kind with keyAllowed := false }

def fetchFlowStart (l : Lexer) (kind : TokenKind) : Except SyntaxError Lexer := do
  let l ← l.saveKey
  return { l.take 1 kind with keys := none :: l.keys, keyAllowed := true }

def fetchFlowEnd (l : Lexer) (kind : TokenKind) : Except SyntaxError Lexer := do
  let l ← l.dropKey
  let keys := if l.inFlow then l.keys.drop 1 else l.keys
  return { l.take 1 kind with keys, keyAllowed := false }

def fetchFlowEntry (l : Lexer) : Except SyntaxError Lexer := do
  let l ← l.dropKey
  return { l.take 1 .flowEntry with keyAllowed := true }

def fetchBlockEntry (l : Lexer) : Except SyntaxError Lexer := do
  let mark := l.cursor.mark
  if !l.inFlow && !l.keyAllowed then l.refuseHere .sequenceEntryHere
  else
    let l ← (l.indentTo mark.column none .blockSequenceStart mark).dropKey
    return { l.take 1 .blockEntry with keyAllowed := true }

def fetchKey (l : Lexer) : Except SyntaxError Lexer := do
  let mark := l.cursor.mark
  if !l.inFlow && !l.keyAllowed then l.refuseHere .mappingKeyHere
  else
    let l ← (l.indentTo mark.column none .blockMappingStart mark).dropKey
    return { l.take 1 .key with keyAllowed := !l.inFlow }

def fetchValue (l : Lexer) : Except SyntaxError Lexer :=
  match l.keys with
  | some k :: rest =>
    let l := (l.insertAt k.number ⟨.key, k.mark, k.mark⟩).indentTo k.mark.column (some k.number)
      .blockMappingStart k.mark
    pure { l.take 1 .value with keys := none :: rest, keyAllowed := false }
  | _ =>
    let mark := l.cursor.mark
    if !l.inFlow && !l.keyAllowed then l.refuseHere .mappingValueHere
    else
      let l := l.indentTo mark.column none .blockMappingStart mark
      pure { l.take 1 .value with keyAllowed := !l.inFlow }

def fetchAnchor (l : Lexer) (isReference : Bool) : Except SyntaxError Lexer := do
  let l ← l.saveKey
  let (t, c) ← readAnchor isReference l.cursor
  return { l.push t with cursor := c, keyAllowed := false }

def fetchTag (l : Lexer) : Except SyntaxError Lexer := do
  let l ← l.saveKey
  let (t, c) ← readTag l.inFlow l.cursor
  return { l.push t with cursor := c, keyAllowed := false }

def fetchBlockScalar (l : Lexer) (literal : Bool) : Except SyntaxError Lexer := do
  let l ← l.dropKey
  let start := l.cursor.mark
  let (text, stop, c) ← readBlock literal l.indent l.cursor
  let style := if literal then Style.literal else .folded
  return { l.push ⟨.scalar (String.ofList text) style, start, stop⟩ with
    cursor := c, keyAllowed := true }

def fetchQuoted (l : Lexer) (single : Bool) : Except SyntaxError Lexer := do
  let l ← l.saveKey
  let start := l.cursor.mark
  let (text, c) ← readQuoted single l.cursor
  let style := if single then Style.singleQuoted else .doubleQuoted
  return { l.push ⟨.scalar (String.ofList text) style, start, c.mark⟩ with
    cursor := c, keyAllowed := false }

def fetchPlain (l : Lexer) : Except SyntaxError Lexer := do
  let l ← l.saveKey
  let start := l.cursor.mark
  let (p, c) ← readPlain l.inFlow l.indent l.cursor
  return { l.push ⟨.scalar (String.ofList p.reversed.reverse) .plain, start, p.stop⟩ with
    cursor := c, keyAllowed := p.crossed }

/-- Whether a plain scalar can start with `x` before `next`. -/
def startsPlain (inFlow : Bool) (x : Char) (next : Option Char) : Bool :=
  if x == '-' then !next.any isBlank
  else if x == '?' || x == ':' then !inFlow && !isBlankOrEnd next
  else !(isBlank x || isBreak x || isIndicator x)

/-- Reads the token that starts here. -/
def fetchHere (l : Lexer) : Except SyntaxError Lexer := do
  let c := l.cursor
  let next := c.ahead 1
  let blankNext := isBlankOrEnd next
  match c.head? with
  | none => l.fetchStreamEnd
  | some x =>
    if c.mark.column == 0 && x == '%' then l.fetchDirective
    else if c.atDocumentMark '-' then l.fetchDocumentMark .documentStart
    else if c.atDocumentMark '.' then l.fetchDocumentMark .documentEnd
    else if x == '[' then l.fetchFlowStart .flowSequenceStart
    else if x == '{' then l.fetchFlowStart .flowMappingStart
    else if x == ']' then l.fetchFlowEnd .flowSequenceEnd
    else if x == '}' then l.fetchFlowEnd .flowMappingEnd
    else if x == ',' then l.fetchFlowEntry
    else if x == '-' && blankNext then l.fetchBlockEntry
    else if x == '?' && (l.inFlow || blankNext) then l.fetchKey
    else if x == ':' && (l.inFlow || blankNext) then l.fetchValue
    else if x == '*' then l.fetchAnchor true
    else if x == '&' then l.fetchAnchor false
    else if x == '!' then l.fetchTag
    else if x == '|' && !l.inFlow then l.fetchBlockScalar true
    else if x == '>' && !l.inFlow then l.fetchBlockScalar false
    else if x == '\'' then l.fetchQuoted true
    else if x == '"' then l.fetchQuoted false
    else if startsPlain l.inFlow x next then l.fetchPlain
    else refuse .badStart c .nextToken c.mark

/-- How many characters are looked at to tell tokens apart. -/
def tokenStart : Nat := 4

/-- How many characters are looked at inside a token, at most. -/
def tokenPart : Nat := 8

/-- Whether a failure came from looking at the end of what is visible. -/
def isAtEnd (l : Lexer) : SyntaxError → Bool
  | .unexpected _ mark _ =>
    mark.index + tokenPart > l.cursor.mark.index + Cursor.byteLength l.cursor.rest
  | _ => false

/-- Reads the next token, with the marks of block collections that it implies. -/
def fetch (l : Lexer) : Except SyntaxError Lexer := do
  let l := skipGap (l.cursor.bound + 1) l
  l.lookAhead 1
  let l ← l.dropStaleKeys
  let l := l.unindentTo l.cursor.mark.column
  l.lookAhead tokenStart
  match l.fetchHere with
  | .ok next => do
    next.lookAhead 1
    return next
  | .error e => match l.forbidden with
    | some offset => throw (if l.isAtEnd e then .forbiddenCharacter offset else e)
    | none => throw e

/-- Settles the tokens before the first possible key. -/
def settle (l : Lexer) : List Token × Lexer :=
  let n := l.keys.foldl (fun n k => k.elim n fun k => min n (k.number - l.settled)) l.waiting.length
  (l.waiting.take n, { l with waiting := l.waiting.drop n, settled := l.settled + n })

/-- Reads token after token; in `done` the last one comes first. -/
def run : Nat → List Token → Lexer → List Token × Option SyntaxError
  | 0, done, _ => (done.reverse, none)
  | fuel + 1, done, l =>
    match if l.waiting.isEmpty then .ok l else l.dropStaleKeys with
    | .error e => (done.reverse, some e)
    | .ok l =>
      let (ts, l) := l.settle
      let done := ts.reverseAux done
      if l.ended && l.waiting.isEmpty then (done.reverse, none)
      else match l.fetch with
        | .error e => (done.reverse, some e)
        | .ok l => run fuel done l

end Lexer

/-- The length of a piece of a text, in bytes; a character that does not fit goes to the next one. -/
def pieceLength : Nat := 16384

/--
The first character that no document may hold, `offset` bytes from the start, and the start of its
piece; `start` is that of the present piece.
-/
def forbidden? (start offset : Nat) : List Char → Option (Nat × Nat)
  | [] => none
  | c :: rest =>
    let start := if offset + c.utf8Size > start + pieceLength then offset else start
    if isAllowed c then forbidden? start (offset + c.utf8Size) rest else some (start, offset)

/-- The characters of the first `n` bytes. -/
def takeBytes : Nat → List Char → List Char
  | _, [] => []
  | n, c :: rest => if c.utf8Size ≤ n then c :: takeBytes (n - c.utf8Size) rest else []

/-- The tokens of a text, up to a failure. Each round passes a character or ends the text. -/
def tokens (text : String) : List Token × Option SyntaxError :=
  let lexer : Lexer := match forbidden? 0 0 text.toList with
    | some (start, offset) =>
      { cursor := { rest := takeBytes start text.toList }, forbidden := some offset }
    | none => { cursor := { rest := text.toList } }
  Lexer.run (text.length + 3) [] lexer

end NetGraph.Yaml
