import NetGraph.Yaml.SyntaxError

/-!
# Reading scalars

* `Gap` : blanks and breaks inside a scalar. Blanks of a line are kept, a single break becomes a blank,
  and of more breaks the first is dropped;
* `readPlain`, `readQuoted`, `readBlock` : the text of a scalar and the place after it. Each loop takes
  at least one character a round, so that the length of the rest bounds the rounds.
-/

namespace NetGraph.Yaml

/-! ## Gaps -/

/-- Blanks and line breaks between two characters of a scalar. -/
structure Gap where
  /-- The blanks before the first break. -/
  blanks : List Char := []
  firstBreak : List Char := []
  moreBreaks : List Char := []
  /-- A break was met, perhaps one that an escape took away. -/
  crossed : Bool := false
  deriving Repr

namespace Gap

/-- What the gap contributes to the text. -/
def text (g : Gap) : List Char :=
  if !g.crossed then g.blanks
  else if g.firstBreak = ['\n'] then
    if g.moreBreaks.isEmpty then [' '] else g.moreBreaks
  else g.firstBreak ++ g.moreBreaks

def addBreak (g : Gap) (b : List Char) : Gap :=
  if g.crossed then { g with moreBreaks := g.moreBreaks ++ b }
  else { g with blanks := [], firstBreak := b, crossed := true }

/-- Reads blanks and breaks; `tabRefused` says where a tab may not stand. -/
def read (tabRefused : Cursor → Bool) (refusal : Cursor → SyntaxError) :
    Nat → Gap → Cursor → Except SyntaxError (Gap × Cursor)
  | 0, g, c => pure (g, c)
  | fuel + 1, g, c =>
    match c.head? with
    | none => pure (g, c)
    | some x =>
      if isBlank x then
        if g.crossed && x == '\t' && tabRefused c then throw (refusal c)
        else
          read tabRefused refusal fuel
            (if g.crossed then g else { g with blanks := g.blanks ++ [x] }) c.skip
      else if isBreak x then
        let (b, c') := c.takeBreak
        read tabRefused refusal fuel (g.addBreak b) c'
      else pure (g, c)

end Gap

/-! ## Plain scalars -/

/-- The characters that end a plain scalar between brackets. -/
def isFlowIndicator (c : Char) : Bool := c ∈ [',', '[', ']', '{', '}']

/-- The characters of a plain scalar up to a blank or an indicator that ends it. -/
def readPlainRun (inFlow : Bool) (start : Mark) :
    Nat → List Char → Cursor → Except SyntaxError (List Char × Cursor)
  | 0, acc, c => pure (acc.reverse, c)
  | fuel + 1, acc, c =>
    match c.head? with
    | none => pure (acc.reverse, c)
    | some x =>
      if isBlank x || isBreak x then pure (acc.reverse, c)
      else if inFlow && x == ':' && (c.ahead 1).any (fun d => d == '?' || isFlowIndicator d) then
        refuse .unexpectedColon c .plainScalar start
      else if (x == ':' && isBlankOrEnd (c.ahead 1)) || (inFlow && isFlowIndicator x) then
        pure (acc.reverse, c)
      else readPlainRun inFlow start fuel (x :: acc) c.skip

/-- A plain scalar as it was read. -/
structure PlainText where
  /-- The text, its last character first. -/
  reversed : List Char := []
  /-- The place after the last character; the gap that follows is passed too. -/
  stop : Mark
  /-- The gap that follows has a line break. -/
  crossed : Bool := false

/-- Lines of a plain scalar, the lines after the first set in to `indent` at least. -/
def readPlainLines (inFlow : Bool) (indent : Int) (start : Mark) :
    Nat → PlainText → Gap → Cursor → Except SyntaxError (PlainText × Cursor)
  | 0, p, gap, c => pure ({ p with crossed := gap.crossed }, c)
  | fuel + 1, p, gap, c => do
    if c.atDocumentBorder || c.startsWith '#' then
      return ({ p with crossed := gap.crossed }, c)
    let (run, c) ← readPlainRun inFlow start (c.bound + 1) [] c
    let (p, gap) := if run.isEmpty then (p, gap)
      else
        let reversed := run.reverseAux (gap.text.reverseAux p.reversed)
        ({ p with reversed, stop := c.mark }, ({} : Gap))
    if !c.head?.any (fun x => isBlank x || isBreak x) then
      return ({ p with crossed := gap.crossed }, c)
    let (gap, c) ← gap.read (fun c => (c.mark.column : Int) < indent)
      (fun c => .unexpected .tabInPlain c.mark (some (.plainScalar, start))) (c.bound + 1) c
    if !inFlow && (c.mark.column : Int) < indent then
      return ({ p with crossed := gap.crossed }, c)
    readPlainLines inFlow indent start fuel p gap c

/-- A plain scalar in a collection at the column `indent`. -/
def readPlain (inFlow : Bool) (indent : Int) (c : Cursor) :
    Except SyntaxError (PlainText × Cursor) :=
  readPlainLines inFlow (indent + 1) c.mark (c.bound + 1) { stop := c.mark } {} c

/-! ## Quoted scalars -/

/-- The character for a letter after a backslash. -/
def simpleEscape? (x : Char) : Option Char :=
  match x with
  | '0' => some '\x00'
  | 'a' => some '\x07'
  | 'b' => some '\x08'
  | 't' | '\t' => some '\t'
  | 'n' => some '\n'
  | 'v' => some '\x0b'
  | 'f' => some '\x0c'
  | 'r' => some '\r'
  | 'e' => some '\x1b'
  | ' ' | '"' | '/' | '\\' => some x
  | 'N' => some (Char.ofNat 0x85)
  | '_' => some (Char.ofNat 0xA0)
  | 'L' => some (Char.ofNat 0x2028)
  | 'P' => some (Char.ofNat 0x2029)
  | _ => none

/-- How many hexadecimal digits follow a letter after a backslash. -/
def escapeWidth? (x : Char) : Option Nat :=
  match x with
  | 'x' => some 2
  | 'u' => some 4
  | 'U' => some 8
  | _ => none

/-- The value of the next `width` hexadecimal digits. -/
def hexAhead? (c : Cursor) (width : Nat) : Option Nat :=
  let ds := c.rest.take width
  if ds.length < width then none
  else ds.foldlM (fun n d => (hexValue? d).map (16 * n + ·)) 0

/-- The character of an escape that starts here, at its backslash. -/
def readEscape (start : Mark) (c : Cursor) : Except SyntaxError (Char × Cursor) :=
  match c.ahead 1 with
  | none => refuse .unknownEscape c .quotedContent start
  | some x =>
    match simpleEscape? x with
    | some y => pure (y, c.skipMany 2)
    | none => match escapeWidth? x with
      | none => refuse .unknownEscape c .quotedContent start
      | some width =>
        let c := c.skipMany 2
        match hexAhead? c width with
        | none => refuse .noHexDigit c .quotedContent start
        | some n =>
          if n.isValidChar then pure (Char.ofNat n, c.skipMany width)
          else refuse .badCodePoint c .quotedContent start

/-- The quote that ends a quoted scalar. -/
def quoteOf (single : Bool) : Char := if single then '\'' else '"'

/--
The characters of a quoted scalar up to its end, a blank or a break; the flag says whether an escape
took a break away.
-/
def readQuotedRun (single : Bool) (start : Mark) :
    Nat → List Char → Cursor → Except SyntaxError (List Char × Bool × Cursor)
  | 0, acc, c => pure (acc.reverse, false, c)
  | fuel + 1, acc, c =>
    match c.head? with
    | none => pure (acc.reverse, false, c)
    | some x =>
      if isBlank x || isBreak x then pure (acc.reverse, false, c)
      else if single && x == '\'' && c.ahead 1 == some '\'' then
        readQuotedRun single start fuel ('\'' :: acc) (c.skipMany 2)
      else if x == quoteOf single then pure (acc.reverse, false, c)
      else if !single && x == '\\' then
        if (c.ahead 1).any isBreak then pure (acc.reverse, true, c.skip.skipBreak)
        else do
          let (y, c) ← readEscape start c
          readQuotedRun single start fuel (y :: acc) c
      else readQuotedRun single start fuel (x :: acc) c.skip

/-- Lines of a quoted scalar up to the closing quote, after a text that is given in reverse. -/
def readQuotedLines (single : Bool) (start : Mark) :
    Nat → List Char → Cursor → Except SyntaxError (List Char × Cursor)
  | 0, reversed, c => pure (reversed.reverse, c)
  | fuel + 1, reversed, c => do
    if c.atDocumentBorder then
      refuse .documentBorder c .quotedScalar start
    else if c.rest.isEmpty then
      refuse .endOfText c .quotedScalar start
    else
      let (run, escaped, c) ← readQuotedRun single start (c.bound + 1) [] c
      let reversed := run.reverseAux reversed
      if c.startsWith (quoteOf single) then return (reversed.reverse, c.skip)
      else
        let (gap, c) ← ({ crossed := escaped } : Gap).read (fun _ => false)
          (fun c => .unexpected .endOfText c.mark none) (c.bound + 1) c
        readQuotedLines single start fuel (gap.text.reverseAux reversed) c

/-- A quoted scalar, from its opening quote on. -/
def readQuoted (single : Bool) (c : Cursor) : Except SyntaxError (List Char × Cursor) :=
  readQuotedLines single c.mark (c.bound + 1) [] c.skip

/-! ## Block scalars -/

/-- What becomes of the breaks at the end of a block scalar. -/
inductive Chomping where
  | strip
  | clip
  | keep
  deriving DecidableEq, Repr

/-- The indicator of the chomping, if one stands here. -/
def chomping? (c : Cursor) : Option Chomping :=
  match c.head? with
  | some '+' => some .keep
  | some '-' => some .strip
  | _ => none

/-- The indicator of the indentation, if one stands here. -/
def readIndentation (start : Mark) (c : Cursor) : Except SyntaxError (Nat × Cursor) :=
  match c.head? with
  | some x =>
    if !x.isDigit then pure (0, c)
    else if x == '0' then refuse .zeroIndentation c .blockScalar start
    else pure (x.toNat - '0'.toNat, c.skip)
  | none => pure (0, c)

/-- The indicators after `|` or `>`, in either order; an indentation of 0 is none. -/
def readBlockHeader (start : Mark) (c : Cursor) :
    Except SyntaxError (Chomping × Nat × Cursor) := do
  match chomping? c with
  | some chomping =>
    let (increment, c) ← readIndentation start c.skip
    return (chomping, increment, c)
  | none =>
    let (increment, c) ← readIndentation start c
    if increment = 0 then return (.clip, 0, c)
    else match chomping? c with
      | some chomping => return (chomping, increment, c.skip)
      | none => return (.clip, increment, c)

/-- Blank lines, and the indentation of the line after them. -/
structure BlankLines where
  breaks : List Char := []
  /-- The deepest indentation met. -/
  deepest : Nat := 0
  stop : Mark

/-- Passes indentation up to `indent`, if that is known yet, and the lines that hold no more. -/
def readBlankLines (indent : Option Nat) (start : Mark) :
    Nat → BlankLines → Cursor → Except SyntaxError (BlankLines × Cursor)
  | 0, b, c => pure (b, c)
  | fuel + 1, b, c =>
    let isShallow (column : Nat) : Bool := match indent with
      | none => true
      | some n => column < n
    let spaces := (c.rest.takeWhile (· == ' ')).length
    let c := c.skipMany (match indent with
      | none => spaces
      | some n => min spaces (n - c.mark.column))
    let b := { b with deepest := max b.deepest c.mark.column }
    if isShallow c.mark.column && c.startsWith '\t' then
      refuse .tabInIndentation c .blockScalar start
    else if c.head?.any isBreak then
      let (x, c) := c.takeBreak
      readBlankLines indent start fuel { b with breaks := b.breaks ++ x, stop := c.mark } c
    else pure (b, c)

/-- The text read so far, with the breaks that are not settled yet. -/
structure BlockText where
  /-- The text, its last character first. -/
  reversed : List Char := []
  leadingBreak : List Char := []
  blankLines : List Char := []
  leadingBlank : Bool := false

/-- The lines of a block scalar that are set in to the column `indent`. -/
def readBlockLines (literal : Bool) (indent : Nat) (start : Mark) :
    Nat → BlockText → Mark → Cursor → Except SyntaxError (BlockText × Mark × Cursor)
  | 0, t, stop, c => pure (t, stop, c)
  | fuel + 1, t, stop, c => do
    if c.mark.column ≠ indent ∨ c.rest.isEmpty then return (t, stop, c)
    let blank := c.head?.any isBlank
    let folded := !literal && t.leadingBreak = ['\n'] && !t.leadingBlank && !blank
    let joint := if folded then (if t.blankLines.isEmpty then [' '] else []) else t.leadingBreak
    let (line, c) := c.takeWhile (!isBreak ·)
    let (leadingBreak, c) := c.takeBreak
    let (b, c) ← readBlankLines (some indent) start (c.bound + 1) { stop := c.mark } c
    readBlockLines literal indent start fuel
      { reversed := line.reverseAux (t.blankLines.reverseAux (joint.reverseAux t.reversed))
        leadingBreak, blankLines := b.breaks, leadingBlank := blank }
      b.stop c

/-- A block scalar in a collection at the column `indent`, from its `|` or `>` on. -/
def readBlock (literal : Bool) (indent : Int) (c : Cursor) :
    Except SyntaxError (List Char × Mark × Cursor) := do
  let start := c.mark
  let (chomping, increment, c) ← readBlockHeader start c.skip
  let c := c.skipWhile isBlank
  let c := if c.startsWith '#' then c.skipLine else c
  if !isBreakOrEnd c.head? then refuse .noLineEnd c .blockScalar start
  else
    let c := c.skipBreak
    let known := if increment = 0 then none
      else some (if indent < 0 then increment else indent.toNat + increment)
    let (b, c) ← readBlankLines known start (c.bound + 1) { stop := c.mark } c
    let column := known.getD (max b.deepest (max (indent + 1).toNat 1))
    let (t, stop, c) ← readBlockLines literal column start (c.bound + 1)
      { blankLines := b.breaks } b.stop c
    let tail := match chomping with
      | .strip => []
      | .clip => t.leadingBreak
      | .keep => t.leadingBreak ++ t.blankLines
    return (t.reversed.reverse ++ tail, stop, c)

end NetGraph.Yaml
