import NetGraph.Files.Path

/-!
# Access to files

* `FileError` : why a file could not be read or written;
* `Files m` : what a program needs of a file system, as actions in `m`;
* `readText` : the text of a file;
* `makeDirs`, `put` : a file with the directories above it.
-/

namespace NetGraph

/-- Why a file could not be read or written. -/
inductive FileError where
  | notFound
  | alreadyExists
  | notADirectory
  | isADirectory
  | nameTooLong
  /-- The path holds the character that ends a path. -/
  | zeroInPath
  /-- The bytes of a file are no UTF-8. -/
  | notText
  /-- Any other refusal of the system, with its number. -/
  | other (description : String) (number : Nat)
  deriving DecidableEq, Repr

namespace FileError

/-- A refusal of the system. -/
def numbered (description : String) (number : Nat) : String := s!"{description} (os error {number})"

def message : FileError → String
  | notFound => numbered "No such file or directory" 2
  | alreadyExists => numbered "File exists" 17
  | notADirectory => numbered "Not a directory" 20
  | isADirectory => numbered "Is a directory" 21
  | nameTooLong => numbered "File name too long" 36
  | zeroInPath => "file name contained an unexpected NUL byte"
  | notText => "stream did not contain valid UTF-8"
  | other description number => numbered description number

end FileError

/-- A file system, by paths. -/
class Files (m : Type → Type) where
  /-- The bytes of a file. -/
  readBytes : String → m (Except FileError ByteArray)
  /-- Makes a text the content of a file, which is new or loses what it held. -/
  writeText : String → String → m (Except FileError Unit)
  /-- Makes one directory in a directory that exists. -/
  makeDir : String → m (Except FileError Unit)
  isDir : String → m Bool

namespace Files

variable {m : Type → Type} [Monad m] [Files m]

/-- The text of a file. -/
def readText (path : String) : m (Except FileError String) := do
  match ← readBytes path with
  | .error e => return .error e
  | .ok bytes => return (String.fromUTF8? bytes).elim (.error .notText) .ok

/-- A refusal that does not matter if the directory is there. -/
def unlessDir (path : String) (e : FileError) : m (Except FileError Unit) := do
  if ← isDir path then return .ok () else return .error e

/-- Makes a directory and those above it that are missing; its steps come with the last one first. -/
def makeDirs (absolute : Bool) : List String → m (Except FileError Unit)
  | [] => return .ok ()
  | last :: above => do
    let path := FilePath.ofSteps absolute (last :: above).reverse
    match ← makeDir path with
    | .ok _ => return .ok ()
    | .error .notFound =>
      match ← makeDirs absolute above with
      | .error e => return .error e
      | .ok _ =>
        match ← makeDir path with
        | .ok _ => return .ok ()
        | .error e => unlessDir path e
    | .error e => unlessDir path e

/-- Makes a text the content of a file and makes the directories above it that are missing. -/
def put (path text : String) : m (Except FileError Unit) := do
  match ← makeDirs (FilePath.isAbsolute path) (FilePath.steps path).reverse.tail with
  | .error e => return .error e
  | .ok _ => writeText path text

end Files
end NetGraph
