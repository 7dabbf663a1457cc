import NetGraph.Yaml.Token.Lexer

/-!
# Documents as trees

* `Node` : a scalar, a sequence, a mapping or an alias, with its place. Where a text breaks off with an
  error, the tree ends in `cut`: who reads the tree in order meets the error there and no earlier;
* `Document` : the tree of a text, with the error that ended it and whether more documents follow;
* `Document.ofText` : the document of a text. A text without any document holds an empty plain scalar.
-/

namespace NetGraph.Yaml

/-- What goes with every node but an alias; `anchor` is the number of the node's anchor. -/
structure Props where
  mark : Mark
  anchor : Option Nat := none
  tag : Option Tag := none
  deriving DecidableEq, Repr, Inhabited

/-- The tree of a document. -/
inductive Node where
  | scalar (props : Props) (style : Style) (text : String)
  | sequence (props : Props) (items : List Node)
  | mapping (props : Props) (entries : List (Node × Node))
  | reference (mark : Mark) (anchor : Nat)
  /-- Here the text breaks off. -/
  | cut
  deriving Repr, Inhabited

namespace Node

/-- An absent node is an empty plain scalar. -/
def absent (mark : Mark) : Node := scalar { mark } .plain ""

mutual

/-- Whether the text does not break off inside the node. -/
def isWhole : Node → Bool
  | scalar .. | reference .. => true
  | sequence _ items => areWhole items
  | mapping _ entries => entriesAreWhole entries
  | cut => false

def areWhole : List Node → Bool
  | [] => true
  | n :: rest => n.isWhole && areWhole rest

def entriesAreWhole : List (Node × Node) → Bool
  | [] => true
  | (k, v) :: rest => k.isWhole && v.isWhole && entriesAreWhole rest

end

mutual

/-- How many steps it takes to walk the node: one for a leaf, and one for each end of a collection. -/
def steps : Node → Nat
  | scalar .. | reference .. => 1
  | sequence p items => 1 + stepsAll items + if (sequence p items).isWhole then 1 else 0
  | mapping p entries => 1 + stepsEntries entries + if (mapping p entries).isWhole then 1 else 0
  | cut => 0

def stepsAll : List Node → Nat
  | [] => 0
  | n :: rest => n.steps + stepsAll rest

def stepsEntries : List (Node × Node) → Nat
  | [] => 0
  | (k, v) :: rest => k.steps + v.steps + stepsEntries rest

end

/-- The node with its anchor, if it has one. -/
def anchorEntry (n : Node) (p : Props) : List (Nat × Node) :=
  (p.anchor.map fun id => (id, n)).toList

mutual

/-- The anchored nodes under the numbers of their anchors, in the order of the text. -/
def anchored : Node → List (Nat × Node)
  | scalar p s t => (scalar p s t).anchorEntry p
  | sequence p items => (sequence p items).anchorEntry p ++ anchoredAll items
  | mapping p entries => (mapping p entries).anchorEntry p ++ anchoredEntries entries
  | reference .. | cut => []

def anchoredAll : List Node → List (Nat × Node)
  | [] => []
  | n :: rest => n.anchored ++ anchoredAll rest

def anchoredEntries : List (Node × Node) → List (Nat × Node)
  | [] => []
  | (k, v) :: rest => k.anchored ++ v.anchored ++ anchoredEntries rest

end

end Node

/-- The tree of a text. -/
structure Document where
  root : Node
  /-- The error that ended the document. -/
  failure : Option SyntaxError := none
  /-- Whether the text goes on after the document. -/
  continues : Bool := false
  deriving Repr, Inhabited

namespace Document

/-- The node that an alias stands for; of two with one number the later. -/
def target? (d : Document) (anchor : Nat) : Option Node :=
  (d.root.anchored.reverse.lookup anchor)

end Document

/-! ## From tokens to trees -/

/-- The tokens that are left, with what was learnt from those that are gone. -/
structure Builder where
  tokens : List Token
  /-- The error that waits after the tokens. -/
  ending : Option SyntaxError
  /-- The error that was met. -/
  stopped : Option SyntaxError := none
  /-- The numbers of the anchors so far. -/
  anchors : List (String × Nat) := []
  /-- The tag handles and what they stand for. -/
  handles : List (String × Tag) := []

namespace Builder

abbrev Build := StateM Builder

/-- The next token; with none left, the error after the tokens is met. -/
def peek : Build (Option Token) := fun b =>
  if b.stopped.isSome then (none, b)
  else match b.tokens with
    | t :: _ => (some t, b)
    | [] => (none, { b with stopped := b.ending })

def skip : Build Unit := modify fun b => { b with tokens := b.tokens.drop 1 }

/-- Meets an error. -/
def stop (e : SyntaxError) : Build Unit := modify fun b => { b with stopped := some e }

/-- Meets an error at `mark`, in something that began at `start`. -/
def stopAt (what : Obstacle) (mark : Mark) (activity : Activity) (start : Mark) : Build Node := do
  stop (.unexpected what mark (some (activity, start)))
  return .cut

def isStopped : Build Bool := return (← get).stopped.isSome

/-- The next token is of one of the kinds for which `p` holds. -/
def nextIs (p : TokenKind → Bool) : Build Bool := return (← peek).any (p ·.kind)

/--
The number of a new anchor: how many names there are. A name that comes again takes the next number
and leaves the count as it is.
-/
def newAnchor (name : String) : Build Nat := fun b =>
  let id := b.anchors.length
  let others := b.anchors.filter (·.1 ≠ name)
  (id, { b with anchors := (name, id) :: others })

/-- The anchor and the tag in front of a node. -/
structure Prelude where
  start : Mark
  anchor : Option String := none
  tag : Option (String × Tag × Mark) := none

/-- Takes the anchor in front of a node. -/
def takeAnchor (p : Prelude) : Build Prelude := do
  match ← peek with
  | some ⟨.anchor name, _, _⟩ => skip; return { p with anchor := some name }
  | _ => return p

/-- Takes the tag in front of a node. -/
def takeTag (p : Prelude) : Build Prelude := do
  match ← peek with
  | some ⟨.tag handle text, start, _⟩ => skip; return { p with tag := some (handle, text, start) }
  | _ => return p

/-- Takes an anchor and a tag, in either order. -/
def takePrelude (start : Mark) : Build Prelude := do
  let p ← takeAnchor { start }
  if p.anchor.isSome then takeTag p
  else
    let p ← takeTag p
    if p.tag.isSome then takeAnchor p else return p

/-- What the tag in front of a node stands for; an unknown handle is an error. -/
def resolveTag (p : Prelude) : Build (Option Tag) := do
  match p.tag with
  | none => return none
  | some (handle, text, mark) =>
    if handle.isEmpty then return some text
    else match (← get).handles.lookup handle with
      | some start => return some (start ++ text)
      | none =>
        discard <| stopAt .undefinedHandle mark .node p.start
        return none

/-- The properties of a node that begins here. -/
def propsOf (p : Prelude) (tag : Option Tag) : Build Props := do
  match p.anchor with
  | some name => return { mark := p.start, anchor := some (← newAnchor name), tag }
  | none => return { mark := p.start, tag }

def isBlockEntry : TokenKind → Bool
  | .blockEntry => true
  | _ => false

def endsBlockItem : TokenKind → Bool
  | .blockEntry | .blockEnd => true
  | _ => false

def endsIndentlessItem : TokenKind → Bool
  | .blockEntry | .key | .value | .blockEnd => true
  | _ => false

def endsBlockKey : TokenKind → Bool
  | .key | .value | .blockEnd => true
  | _ => false

def endsPairKey : TokenKind → Bool
  | .value | .flowEntry | .flowSequenceEnd => true
  | _ => false

def endsPairValue : TokenKind → Bool
  | .flowEntry | .flowSequenceEnd => true
  | _ => false

def endsFlowKey : TokenKind → Bool
  | .value | .flowEntry | .flowMappingEnd => true
  | _ => false

def endsFlowValue : TokenKind → Bool
  | .flowEntry | .flowMappingEnd => true
  | _ => false

mutual

/-- A node; `block` if block collections may start here, `bare` if a sequence may without its own
indentation. -/
def node : Nat → (block bare : Bool) → Build Node
  | 0, _, _ => return .cut
  | fuel + 1, block, bare => do
    match ← peek with
    | none => return .cut
    | some ⟨.reference name, start, _⟩ =>
      skip
      match (← get).anchors.lookup name with
      | some id => return .reference start id
      | none => stop (.unknownAnchor start); return .cut
    | some first => do
      let p ← takePrelude first.start
      match ← peek with
      | none => return .cut
      | some t => do
        let tag ← resolveTag p
        if ← isStopped then return .cut
        else content fuel block bare p tag t

/-- What follows the properties of a node. -/
def content : Nat → (block bare : Bool) → Prelude → Option Tag → Token → Build Node
  | 0, _, _, _, _, _ => return .cut
  | fuel + 1, block, bare, p, tag, t => do
    if bare && isBlockEntry t.kind then
      return .sequence (← propsOf p tag) (← bareItems fuel)
    else match t.kind, block with
      | .scalar text style, _ =>
        let props ← propsOf p tag
        skip
        return .scalar props style text
      | .flowSequenceStart, _ =>
        let props ← propsOf p tag
        skip
        return .sequence props (← flowItems fuel t.start true)
      | .flowMappingStart, _ =>
        let props ← propsOf p tag
        skip
        return .mapping props (← flowEntries fuel t.start true)
      | .blockSequenceStart, true =>
        let props ← propsOf p tag
        skip
        return .sequence props (← blockItems fuel t.start)
      | .blockMappingStart, true =>
        let props ← propsOf p tag
        skip
        return .mapping props (← blockEntries fuel t.start)
      | _, _ =>
        if p.anchor.isSome || tag.isSome then return .scalar (← propsOf p tag) .plain ""
        else stopAt .noContent t.start (if block then .blockNode else .flowNode) p.start

/-- A node, or an absent one where a token ends the place for it. -/
def optionalNode : Nat → (block bare : Bool) → (TokenKind → Bool) → Mark → Build Node
  | 0, _, _, _, _ => return .cut
  | fuel + 1, block, bare, ends, mark => do
    match ← peek with
    | none => return .cut
    | some t => if ends t.kind then return .absent mark else node fuel block bare

/-- The items of a block sequence that began at `start`. -/
def blockItems : Nat → Mark → Build (List Node)
  | 0, _ => return [.cut]
  | fuel + 1, start => do
    match ← peek with
    | none => return [.cut]
    | some t => match t.kind with
      | .blockEntry =>
        skip
        let item ← optionalNode fuel true false endsBlockItem t.stop
        return item :: (← blockItems fuel start)
      | .blockEnd => skip; return []
      | _ => return [← stopAt .noDash t.start .blockSequence start]

/-- The items of a sequence that is set in no deeper than its key. -/
def bareItems : Nat → Build (List Node)
  | 0 => return [.cut]
  | fuel + 1 => do
    match ← peek with
    | none => return [.cut]
    | some t =>
      if isBlockEntry t.kind then
        skip
        let item ← optionalNode fuel true false endsIndentlessItem t.stop
        return item :: (← bareItems fuel)
      else return []

/-- The entries of a block mapping that began at `start`. -/
def blockEntries : Nat → Mark → Build (List (Node × Node))
  | 0, _ => return [(.cut, .cut)]
  | fuel + 1, start => do
    match ← peek with
    | none => return [(.cut, .cut)]
    | some t => match t.kind with
      | .key =>
        skip
        let k ← optionalNode fuel true true endsBlockKey t.stop
        let v ← blockValue fuel
        return (k, v) :: (← blockEntries fuel start)
      | .blockEnd => skip; return []
      | _ =>
        discard <| stopAt .noKey t.start .blockMapping start
        return [(.cut, .cut)]

/-- The value of a key of a block mapping. -/
def blockValue : Nat → Build Node
  | 0 => return .cut
  | fuel + 1 => do
    match ← peek with
    | none => return .cut
    | some t => match t.kind with
      | .value => skip; optionalNode fuel true true endsBlockKey t.stop
      | _ => return .absent t.start

/-- The items of a flow sequence that began at `start`; `first` before the first item. -/
def flowItems : Nat → Mark → (first : Bool) → Build (List Node)
  | 0, _, _ => return [.cut]
  | fuel + 1, start, first => do
    match ← peek with
    | none => return [.cut]
    | some t => match t.kind, first with
      | .flowSequenceEnd, _ => skip; return []
      | .flowEntry, false => skip; flowItem fuel start
      | _, true => flowItem fuel start
      | _, false => return [← stopAt .noCommaOrBracket t.start .flowSequence start]

/-- An item of a flow sequence and those after it. -/
def flowItem : Nat → Mark → Build (List Node)
  | 0, _ => return [.cut]
  | fuel + 1, start => do
    match ← peek with
    | none => return [.cut]
    | some t => match t.kind with
      | .flowSequenceEnd => skip; return []
      | .key =>
        skip
        let pair ← flowPair fuel
        -- the mapping ends at a token, so the text may break off before its end
        let cuts := if (← peek).isSome then [] else [(.cut, .cut)]
        return .mapping { mark := t.start } (pair :: cuts) :: (← flowItems fuel start false)
      | _ =>
        let item ← node fuel false false
        return item :: (← flowItems fuel start false)

/-- A mapping of one entry without brackets. A key that is absent takes the token in its place along. -/
def flowPair : Nat → Build (Node × Node)
  | 0 => return (.cut, .cut)
  | fuel + 1 => do
    match ← peek with
    | none => return (.cut, .cut)
    | some t =>
      let k ←
        if endsPairKey t.kind then do
          skip
          pure (Node.absent t.stop)
        else node fuel false false
      match ← peek with
      | none => return (k, .cut)
      | some t => match t.kind with
        | .value => do
          skip
          match ← peek with
          | none => return (k, .cut)
          | some u => return (k, ← optionalNode fuel false false endsPairValue u.start)
        | _ => return (k, .absent t.start)

/-- The entries of a flow mapping that began at `start`; `first` before the first entry. -/
def flowEntries : Nat → Mark → (first : Bool) → Build (List (Node × Node))
  | 0, _, _ => return [(.cut, .cut)]
  | fuel + 1, start, first => do
    match ← peek with
    | none => return [(.cut, .cut)]
    | some t => match t.kind, first with
      | .flowMappingEnd, _ => skip; return []
      | .flowEntry, false => skip; flowEntry fuel start
      | _, true => flowEntry fuel start
      | _, false =>
        discard <| stopAt .noCommaOrBrace t.start .flowMapping start
        return [(.cut, .cut)]

/-- An entry of a flow mapping and those after it. -/
def flowEntry : Nat → Mark → Build (List (Node × Node))
  | 0, _ => return [(.cut, .cut)]
  | fuel + 1, start => do
    match ← peek with
    | none => return [(.cut, .cut)]
    | some t => match t.kind with
      | .flowMappingEnd => skip; return []
      | .key =>
        skip
        match ← peek with
        | none => return [(.cut, .cut)]
        | some u =>
          let k ← optionalNode fuel false false endsFlowKey u.start
          let v ← flowValue fuel
          return (k, v) :: (← flowEntries fuel start false)
      | _ =>
        let k ← node fuel false false
        match ← peek with
        | none => return [(k, .cut)]
        | some u => return (k, .absent u.start) :: (← flowEntries fuel start false)

/-- The value of a key of a flow mapping. -/
def flowValue : Nat → Build Node
  | 0 => return .cut
  | fuel + 1 => do
    match ← peek with
    | none => return .cut
    | some t => match t.kind with
      | .value => do
        skip
        match ← peek with
        | none => return .cut
        | some u => optionalNode fuel false false endsFlowValue u.start
      | _ => return .absent t.start

end

/-! ## Documents -/

/-- The handles that need no directive. -/
def defaultHandles : List (String × Tag) := [("!", .ofString "!"), ("!!", .ofString Tag.coreStart)]

/-- Takes the directives in front of a document; `version` once there was a version. -/
def directives : Nat → (version : Bool) → Build Unit
  | 0, _ => return
  | fuel + 1, version => do
    match ← peek with
    | some ⟨.versionDirective major minor, start, _⟩ =>
      if version then stop (.unexpected .duplicateVersion start none)
      else if major ≠ 1 ∨ (minor ≠ 1 ∧ minor ≠ 2) then stop (.unexpected .badVersion start none)
      else skip; directives fuel true
    | some ⟨.tagDirective handle text, start, _⟩ =>
      if ((← get).handles.lookup handle).isSome then
        stop (.unexpected .duplicateTagDirective start none)
      else
        skip
        modify fun b => { b with handles := b.handles ++ [(handle, text)] }
        directives fuel version
    | _ => return

def startsDocument : TokenKind → Bool
  | .versionDirective .. | .tagDirective .. | .documentStart => true
  | _ => false

def endsDocument : TokenKind → Bool
  | .versionDirective .. | .tagDirective .. | .documentStart | .documentEnd | .streamEnd => true
  | _ => false

/-- The root of the first document. -/
def root (fuel : Nat) : Build Node := do
  match ← peek with
  | none => return .cut
  | some t =>
    if t.kind = .streamEnd then return .absent t.start
    else if !startsDocument t.kind then
      modify fun b => { b with handles := defaultHandles }
      node fuel true false
    else
      directives fuel false
      modify fun b => { b with handles := b.handles ++ defaultHandles }
      match ← peek with
      | none => return .cut
      | some t =>
        if t.kind ≠ .documentStart then
          stop (.unexpected .noDocumentStart t.start none)
          return .cut
        else
          skip
          match ← peek with
          | none => return .cut
          | some u => optionalNode fuel true false endsDocument u.start

/-- Whether anything but the end of the text follows the document. -/
def continues : Build Bool := do
  modify fun b => { b with tokens := b.tokens.dropWhile (·.kind = .documentEnd) }
  match ← peek with
  | none => return true
  | some t => return t.kind ≠ .streamEnd

/-- The document: its root, then its end. -/
def document (fuel : Nat) : Build Document := do
  let root ← root fuel
  let atEnd := (← peek).isNone
  if atEnd then return { root, failure := (← get).stopped }
  else return { root, continues := ← continues }

end Builder

/-- The first document of a text. Each level of a tree takes a token or ends. -/
def Document.ofText (text : String) : Document :=
  let (ts, ending) := tokens text
  (Builder.document (8 * ts.length + 16) |>.run { tokens := ts, ending }).1

end NetGraph.Yaml
