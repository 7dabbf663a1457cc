import NetGraph.Files

/-!
# Files as data

* `FileTree` : files and directories by their places. A place is a list of names from the current
  directory on; it starts with `..` outside of that directory, and with `/` where a path was absolute.
  Directories above the current one exist, and hold nothing but what is put there;
* `FileTree.place` : where a path leads. Each part but the last has to be a directory;
* `FileTree` as a state gives an instance of `Files`, so that a program can be run on it.
-/

namespace NetGraph

/-- What a place holds. -/
inductive FileItem where
  | file (bytes : ByteArray)
  | directory

def FileItem.isDirectory : FileItem → Bool
  | file _ => false
  | directory => true

/-- What there is, by its place. -/
structure FileTree where
  items : List (List String × FileItem) := []

/-- The longest part of a path, in bytes. -/
def longestPart : Nat := 255

/-- The longest path, in bytes. -/
def longestPath : Nat := 4095

namespace FileTree

/-- The name of the root. -/
def root : String := "/"

/-- The current directory, one above it, or the root. -/
def isStart (place : List String) : Bool := place = [root] || place.all (· = "..")

/-- What a place holds. -/
def item? (t : FileTree) (place : List String) : Option FileItem :=
  if isStart place then some .directory else t.items.lookup place

/-- Puts an item at a place, in place of what was there. -/
def set (t : FileTree) (place : List String) (item : FileItem) : FileTree :=
  if (t.items.lookup place).isSome then
    ⟨t.items.map fun e => if e.1 = place then (place, item) else e⟩
  else ⟨t.items ++ [(place, item)]⟩

/-- The tree with these files and the directories above them. -/
def ofFiles (files : List (String × ByteArray)) : FileTree :=
  files.foldl (fun t (path, bytes) =>
    let parts := FilePath.parts path
    let dirs := (List.range parts.length).drop 1 |>.map (parts.take ·)
    (dirs.foldl (·.set · .directory) t).set parts (.file bytes)) {}

/-- Whether a place is inside of the current directory. -/
def isInside (place : List String) : Bool := !place.head?.any (· ∈ [root, ".."])

/-- The files inside of the current directory, with their paths. -/
def files (t : FileTree) : List (String × ByteArray) :=
  t.items.filterMap fun
    | (place, .file bytes) =>
      if isInside place then some (FilePath.ofSteps false place, bytes) else none
    | (_, .directory) => none

/-- The directory above `here`; the root is above itself. -/
def above (here : List String) : List String :=
  if here = [root] then here
  else if here.all (· = "..") then here ++ [".."]
  else here.dropLast

/-- One step down from the directory `here`. -/
def below (here : List String) (part : String) : Except FileError (List String) :=
  if part.utf8ByteSize > longestPart then throw .nameTooLong else pure (here ++ [part])

/-- The directory that parts lead to from the directory `here`. -/
def walk (t : FileTree) (here : List String) : List String → Except FileError (List String)
  | [] => pure here
  | part :: rest =>
    if part = "." then walk t here rest
    else if part = ".." then walk t (above here) rest
    else do
      let place ← below here part
      match t.item? place with
      | none => throw .notFound
      | some (.file _) => throw .notADirectory
      | some .directory => walk t place rest

/-- Where a path leads: to a directory by dots, or to a name in a directory. -/
inductive Place where
  | directory (here : List String)
  | name (dir : List String) (last : String)

/-- Where a path leads. -/
def place (t : FileTree) (path : String) : Except FileError Place :=
  if '\x00' ∈ path.toList then throw .zeroInPath
  else if path.isEmpty then throw .notFound
  else if path.utf8ByteSize > longestPath then throw .nameTooLong
  else
    let start := if FilePath.isAbsolute path then [root] else []
    let parts := FilePath.parts path
    match parts.getLast? with
    | none => pure (.directory start)
    | some last =>
      if last = "." ∨ last = ".." then .directory <$> t.walk start parts
      else (.name · last) <$> t.walk start parts.dropLast

/-- The bytes of a file. -/
def read (t : FileTree) (path : String) : Except FileError ByteArray := do
  match ← t.place path with
  | .directory _ => throw .isADirectory
  | .name dir last =>
    match t.item? (← below dir last) with
    | none => throw .notFound
    | some .directory => throw .isADirectory
    | some (.file bytes) => if FilePath.endsInSlash path then throw .notADirectory else pure bytes

/-- The tree after a text was written to a file. -/
def write (t : FileTree) (path text : String) : Except FileError FileTree := do
  match ← t.place path with
  | .directory _ => throw .isADirectory
  | .name dir last =>
    if FilePath.endsInSlash path then throw .isADirectory
    else
      let place ← below dir last
      match t.item? place with
      | some .directory => throw .isADirectory
      | _ => pure (t.set place (.file text.toUTF8))

/-- The tree after a directory was made. -/
def makeDir (t : FileTree) (path : String) : Except FileError FileTree := do
  match ← t.place path with
  | .directory _ => throw .alreadyExists
  | .name dir last =>
    let place ← below dir last
    match t.item? place with
    | some _ => throw .alreadyExists
    | none => pure (t.set place .directory)

def isDir (t : FileTree) (path : String) : Bool :=
  match t.place path with
  | .ok (.directory _) => true
  | .ok (.name dir last) => (t.item? (dir ++ [last])).any (·.isDirectory)
  | .error _ => false

/-- Takes over a changed tree. -/
def commit (next : Except FileError FileTree) : StateM FileTree (Except FileError Unit) := do
  match next with
  | .ok t =>
    MonadState.set t
    return .ok ()
  | .error e => return .error e

instance : Files (StateM FileTree) where
  readBytes path := return (← get).read path
  writeText path text := do commit ((← get).write path text)
  makeDir path := do commit ((← get).makeDir path)
  isDir path := return (← get).isDir path

end FileTree
end NetGraph
