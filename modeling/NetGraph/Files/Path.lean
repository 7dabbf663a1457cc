/-!
# Paths

A path is a text; its parts stand between slashes.

* `FilePath.steps`, `FilePath.ofSteps` : a path as the steps that lead to a place, and back;
* `FilePath.inside` : the path of a name in a directory.
-/

namespace NetGraph.FilePath

/-- What stands between slashes. -/
def parts (path : String) : List String := (path.splitOn "/").filter (!·.isEmpty)

def isAbsolute (path : String) : Bool := path.toList.head? = some '/'

/-- Whether the path ends in a slash and so can only name a directory. -/
def endsInSlash (path : String) : Bool := path.toList.getLast? = some '/'

/-- The parts that lead to a place: a dot leads nowhere, unless it is all there is at the start. -/
def steps (path : String) : List String :=
  match parts path with
  | [] => []
  | first :: rest =>
    let rest := rest.filter (· ≠ ".")
    if first = "." && isAbsolute path then rest else first :: rest

/-- The path with these steps. -/
def ofSteps (absolute : Bool) (steps : List String) : String :=
  (if absolute then "/" else "") ++ String.intercalate "/" steps

/-- The name `name` inside of the directory `dir`; the empty text is the current one. -/
def inside (dir name : String) : String :=
  if dir.isEmpty || endsInSlash dir then dir ++ name else dir ++ "/" ++ name

end NetGraph.FilePath
