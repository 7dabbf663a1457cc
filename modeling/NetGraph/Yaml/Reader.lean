import NetGraph.Yaml.Node
import NetGraph.Yaml.ReadError

/-!
# Reading values from a document

* `Reader` : reads a node with the document at hand, for aliases; it counts the aliases it follows;
* `Reader.text`, `bool`, `optional`, `choice`, `sequence`, `entries` and `record` : the
  readers of scalars, lists and mappings. An empty plain scalar is an empty list or mapping; a scalar
  is a text whatever it would stand for, but a boolean only by its six spellings;
* `Document.read` : reads the root and insists that the text ends there.

Mismatches are placed at the innermost node whose reading failed as a whole.
-/

namespace NetGraph.Yaml

/-- Where a reader stands: the way there, and how many collections it may still enter. -/
structure Spot where
  path : Path := []
  depth : Nat := 128
  deriving Repr

namespace Spot

def step (s : Spot) (x : Step) : Spot := { s with path := x :: s.path }

/-- One collection deeper. -/
def enter (s : Spot) : Spot := { s with depth := s.depth - 1 }

end Spot

/-- A reading of nodes of a document; the state is the number of aliases that were followed. -/
abbrev Reader := ReaderT Document (StateT Nat (Except ReadError))

namespace Node

/-- What an untagged plain scalar is. -/
def plainFound (s : String) : Found :=
  match PlainValue.resolve s with
  | .null => .null
  | .bool b => .bool b
  | .int n => .int n
  | .float x => .float x
  | .text => .text s

/-- What a scalar is, by its tag, else by its style; a text that is not of its tag's type is none. -/
def scalarFound (tag : Option Tag) (style : Style) (s : String) : Except Mismatch Found :=
  let plain := if style = .plain then plainFound s else .text s
  match tag with
  | none => pure plain
  | some t =>
    if t = .core "bool" then
      (bool? s).elim (throw (.value s "a boolean")) (pure <| .bool ·)
    else if t = .core "int" then
      (PlainValue.int? s.toList).elim (throw (.value s "an integer")) (pure <| .int ·)
    else if t = .core "float" then
      (PlainValue.float? s).elim (throw (.value s "a float")) (pure <| .float ·)
    else if t = .core "null" then
      if isNull s then pure .null else throw (.value s "null")
    else if t.isOwn then pure plain
    else pure (.text s)

/-- The mismatch of a node that is not what was expected. -/
def mismatch (expected : String) : Node → Mismatch
  | scalar p style s => match scalarFound p.tag style s with
    | .ok found => .kind found expected
    | .error m => m
  | sequence .. => .kind .sequence expected
  | mapping .. => .kind .mapping expected
  | reference .. | cut => .kind .null expected

def mark : Node → Mark
  | scalar p .. | sequence p _ | mapping p _ => p.mark
  | reference m _ => m
  | cut => {}

end Node

namespace Reader

variable {α : Type}

/-- A mismatch that is placed by a reader further out. -/
def fail (m : Mismatch) : Reader α := throw (.mismatch m none)

/-- Places the mismatches of a reading. -/
def placed (mark : Mark) (spot : Spot) (r : Reader α) : Reader α := fun d n =>
  match r d n with
  | .error e => .error (e.placeAt mark spot.path)
  | ok => ok

/-- A node that is not what was expected. -/
def refuse (expected : String) (spot : Spot) (node : Node) : Reader α :=
  placed node.mark spot (fail (node.mismatch expected))

/-- The text breaks off: the error that was met there. -/
def brokenOff : Reader α := do
  match (← read).failure with
  | some e => throw (.malformed e)
  | none => throw .endOfText

/-- How many aliases may be followed for each step of a walk through the document. -/
def repetitionFactor : Nat := 100

/-- The node itself, or what an alias stands for. -/
def follow (node : Node) : Reader Node := do
  match node with
  | .cut => brokenOff
  | .reference _ anchor =>
    let jumps := (← get) + 1
    set jumps
    let d ← read
    if jumps > d.root.steps * repetitionFactor then throw .tooManyRepetitions
    else match d.target? anchor with
      | some target => return target
      | none => throw .endOfText
  | node => return node

/-! ## Scalars -/

/-- The text of a scalar as it is written. -/
def text (expected : String) (spot : Spot) (node : Node) : Reader String := do
  match ← follow node with
  | .scalar _ _ s => return s
  | other => refuse expected spot other

/-- A text. -/
def string (spot : Spot) (node : Node) : Reader String := text "a string" spot node

def bool (spot : Spot) (node : Node) : Reader Bool := do
  let node ← follow node
  let refused := refuse "a boolean" spot node
  match node with
  | .scalar p style s =>
    if style = .plain || (style = .literal && p.tag = some (.core "bool")) then
      match bool? s with
      | some b => return b
      | none => refused
    else refused
  | _ => refused

/-- Nothing for null, else what `r` reads. -/
def optional (r : Spot → Node → Reader α) (spot : Spot) (node : Node) : Reader (Option α) := do
  let node ← follow node
  let present : Reader (Option α) := return some (← r spot node)
  match node with
  | .scalar p .plain s =>
    if p.tag = some (.core "null") then
      if isNull s then return none else fail (.value s "null")
    else if p.tag.isNone && (s.isEmpty || isNull s) then return none
    else present
  | _ => present

/-- Whether a node may stand after the tag that names a variant: nothing, or null. -/
def unit (spot : Spot) (node : Node) : Reader Unit := do
  match node with
  | .scalar p style s =>
    if style = .plain && (s.isEmpty || isNull s) then return
    else placed p.mark spot (fail (.value s "null"))
  | other => refuse "unit" spot other

/-- A variant by its name, from a text or from a tag. -/
def variant (known : List String) (parse : String → Option α) (name : String) : Reader α :=
  match parse name with
  | some a => return a
  | none => fail (.unknownVariant name known)

/-- One of several names in a node that is no alias. -/
def choiceIn (known : List String) (parse : String → Option α) (spot : Spot) (node : Node) :
    Reader α :=
  let ofTag (tag : Option Tag) (otherwise : Reader α) : Reader α := do
    match tag.bind Tag.ownName? with
    | none => otherwise
    | some name =>
      let a ← variant known parse name
      unit spot node
      return a
  let refused := refuse "a YAML tag starting with '!'" spot node
  match node with
  | .scalar p _ s => ofTag p.tag (placed p.mark spot (variant known parse s))
  | .sequence p _ | .mapping p _ => ofTag p.tag refused
  | .reference .. | .cut => refused

/--
One of several names, written as a text or as a tag of nothing. A name in a tag that is not known is
placed by a reader further out, or at the alias that led to it.
-/
def choice (known : List String) (parse : String → Option α) (spot : Spot) (node : Node) :
    Reader α := do
  let r := choiceIn known parse spot (← follow node)
  match node with
  | .reference m _ => placed m spot r
  | _ => r

/-! ## Collections -/

/-- Whether a node is an empty plain scalar. -/
def isEmptyPlain : Node → Bool
  | .scalar _ .plain s => s.isEmpty
  | _ => false

/-- Enters a collection, unless it is nested too deep. -/
def entering (mark : Mark) (spot : Spot) (r : Spot → Reader α) : Reader α :=
  if spot.depth = 0 then throw (.tooDeep mark) else placed mark spot (r spot.enter)

/-- The items of a list from the index `i` on. -/
def itemsFrom (r : Spot → Node → Reader α) (spot : Spot) : Nat → List Node → Reader (List α)
  | _, [] => return []
  | i, n :: rest => do
    let a ← r (spot.step (.item i)) n
    return a :: (← itemsFrom r spot (i + 1) rest)

/-- A list; an empty plain scalar is the empty one. -/
def sequence (r : Spot → Node → Reader α) (spot : Spot) (node : Node) : Reader (List α) := do
  match ← follow node with
  | .sequence p items => entering p.mark spot fun spot => itemsFrom r spot 0 items
  | other => if isEmptyPlain other then return [] else refuse "a sequence" spot other

/-- The step to the value of a key. -/
def stepOf : Node → Step
  | .scalar _ _ s => .key s
  | _ => .unnamed

/-- Passes over a node that nothing is read from. -/
def ignore (node : Node) : Reader Unit := if node.isWhole then return else brokenOff

/--
Reads a mapping entry by entry: `step` takes the value read so far, the spot of the mapping, the key,
the spot of the value and the value. An empty plain scalar is the empty mapping.
-/
def entries {β : Type} (expected : String) (init : α) (step : α → Spot → Node → Spot → Node → Reader α)
    (finish : α → Reader β) (spot : Spot) (node : Node) : Reader β := do
  match ← follow node with
  | .mapping p es =>
    entering p.mark spot fun spot => do
      let a ← es.foldlM (fun a e => step a spot e.1 (spot.step (stepOf e.1)) e.2) init
      finish a
  | other =>
    if isEmptyPlain other then placed other.mark spot (finish init)
    else refuse expected spot other

/-- What a record is read into: the fields that were seen, and the value so far. -/
structure Partial (α : Type) where
  seen : List String := []
  value : α

/-- Takes one entry of a record. -/
def takeField (canonical : String → Option String) (set : α → String → Spot → Node → Reader α)
    (a : Partial α) (spot : Spot) (k : Node) (below : Spot) (v : Node) :
    Reader (Partial α) := do
  let key ← text "field identifier" spot k
  match canonical key with
  | none => ignore v; return a
  | some field =>
    if field ∈ a.seen then fail (.duplicateField field)
    else return ⟨field :: a.seen, ← set a.value field below v⟩

/--
A mapping with known keys. `canonical` gives the field that a key stands for, `set` reads a field into
the value, which starts as `init`. Other keys are passed over, a field may come once, and the fields in
`required` must come.
-/
def record (expected : String) (canonical : String → Option String) (required : List String)
    (init : α) (set : α → String → Spot → Node → Reader α) (spot : Spot) (node : Node) : Reader α :=
  entries expected ({ value := init } : Partial α) (takeField canonical set)
    (fun a => match required.find? (· ∉ a.seen) with
      | some field => fail (.missingField field)
      | none => return a.value)
    spot node

/-- The keys of a record that stand for themselves. -/
def among (fields : List String) (key : String) : Option String :=
  if key ∈ fields then some key else none

end Reader

/-- Reads the whole document. -/
def Document.read {α : Type} (d : Document) (r : Spot → Node → Reader α) : Except ReadError α :=
  match r {} d.root d 0 with
  | .error e => .error e
  | .ok (a, _) =>
    match d.failure with
    | some e => .error (.malformed e)
    | none => if d.continues then .error .moreThanOneDocument else .ok a

end NetGraph.Yaml
