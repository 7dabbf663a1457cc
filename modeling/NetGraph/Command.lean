import NetGraph.Config
import NetGraph.Files
import NetGraph.GraphDocument.Reading
import NetGraph.Json
import NetGraph.Store

/-!
# Commands

* `Invocation` : what the command line asks for: to check a graph, to say whether a rule may be drawn,
  or to generate a manifest;
* `loadConfig`, `loadGraph` : the files that a command reads; a configuration that does not exist is
  empty;
* `Invocation.run` : runs a command on a file system and gives its `Report`, the exit code and the texts
  for the two output streams. Only `generate` writes files, and only a manifest that passed the gate.
-/

namespace NetGraph

/-- The format of a list of issues or of log lines. -/
inductive Format where
  | text
  | json
  deriving DecidableEq, Repr, Inhabited

namespace Format

def ofName? (s : String) : Option Format :=
  if s = "text" then some text else if s = "json" then some json else none

end Format

/-- Where a manifest goes, as far as the command line says. -/
inductive Destination where
  | unsaid
  | file (path : String)
  /-- A file of a name of its own in this directory. -/
  | folder (path : String)
  deriving DecidableEq, Repr, Inhabited

/-- What a command is to do. The graph's file may be left to the configuration. -/
inductive Request where
  | validate (graph : Option String) (output : Format)
  | connectCheck (graph : Option String) (source target : String)
  | generate (graph : Option String) (target : String) (destination : Destination)
  deriving DecidableEq, Repr

/-- The configuration's file, unless the command line names one. -/
def defaultConfigPath : String := "netgraph.yaml"

/-- A command line that was understood. -/
structure Invocation where
  config : String := defaultConfigPath
  logFormat : Option Format := none
  request : Request
  deriving DecidableEq, Repr

/-- Why a file that a command needs could not be used. -/
inductive LoadError where
  | configFile (cause : FileError)
  | configDocument (cause : Yaml.ReadError)
  | graphFile (path : String) (cause : FileError)
  | graphDocument (path : String) (cause : Yaml.ReadError)
  deriving DecidableEq, Repr

/-- What was being done, if that is told, and what went wrong. -/
def LoadError.messages : LoadError → List String
  | configFile cause => [cause.message]
  | configDocument cause => [cause.message]
  | graphFile path cause => [s!"read graph file {path}", cause.message]
  | graphDocument path cause => [s!"parse graph file {path}", cause.message]

/-- Why a command broke off. -/
inductive Failure where
  | load (error : LoadError)
  | noGraph
  | write (error : FileError)
  deriving DecidableEq, Repr

namespace Failure

def messages : Failure → List String
  | load error => error.messages
  | noGraph => ["No graph given: pass --graph or set `graph` in the config file"]
  | write error => [error.message]

/-- A text with every line set in. -/
def setIn (s : String) : String := "    " ++ String.intercalate "\n    " (s.splitOn "\n")

/-- The failure and its cause for the standard error stream. -/
def report (f : Failure) : String :=
  match f.messages with
  | [] => "Error: \n"
  | [what] => s!"Error: {what}\n"
  | what :: causes =>
    s!"Error: {what}\n\nCaused by:\n" ++ String.join (causes.map fun c => setIn c ++ "\n")

end Failure

/-- What a command leaves behind, besides files. -/
structure Report where
  code : Nat := 0
  out : String := ""
  err : String := ""
  deriving DecidableEq, Repr

/-- An issue as JSON. -/
def Issue.json (i : Issue) : Json :=
  .object ([("message", Json.text i.message)]
    ++ (i.elementId.map fun id => ("elementId", Json.text id)).toList
    ++ (i.fieldKey.map fun key => ("fieldKey", Json.text key)).toList
    ++ [("severity", .text i.severity.name)])

/-- The answer to `validate`: the issues, and a failure if one of them is an error. -/
def validateReport (issues : List Issue) (output : Format) : Report where
  code := if errorCount issues = 0 then 0 else 1
  out := match output with
    | .json => (Json.list (issues.map Issue.json)).pretty ++ "\n"
    | .text => String.join (issues.map fun i => i.text ++ "\n")
        ++ s!"{errorCount issues} error(s), {warningCount issues} warning(s)\n"

/-- The answer to `connect-check`: the label of the rule, or why there may be none. -/
def connectReport (g : Snapshot) (source target : String) : Report :=
  match g.drawn? g.unusedEdgeId source target with
  | .ok (_, edge) => { out := s!"allowed: {edge.label.getD edge.id}\n" }
  | .error refusal => { code := 1, err := s!"refused: {refusal.message}\n" }

/-- The path of a manifest's file, if it goes to one. -/
def Destination.path? (config : Config) (fileName : String) : Destination → Option String
  | file path => some path
  | folder dir => some (FilePath.inside dir fileName)
  | unsaid => config.outDir.map (FilePath.inside · fileName)

section Run

variable {m : Type → Type} [Monad m] [Files m]

/-- The configuration in a file; an empty one if the file does not exist. -/
def loadConfig (path : String) : m (Except LoadError Config) := do
  match ← Files.readText path with
  | .error .notFound => return .ok {}
  | .error e => return .error (.configFile e)
  | .ok text => return (Config.ofYaml text).mapError .configDocument

/-- The graph in a file. -/
def loadGraph (path : String) : m (Except LoadError Snapshot) := do
  match ← Files.readText path with
  | .error e => return .error (.graphFile path e)
  | .ok text => return (Snapshot.ofYaml text).mapError (.graphDocument path)

/-- A working graph, from the file that the command line names or else the configuration. -/
def openStore (graph : Option String) (config : Config) : ExceptT Failure m Store := do
  match graph.or config.graph with
  | none => throw .noGraph
  | some path => match ← loadGraph (m := m) path with
    | .error e => throw (.load e)
    | .ok g => return Store.ofSnapshot g

/-- Puts out a manifest, or writes it to its file. -/
def deliver (config : Config) (destination : Destination) (manifest : Generated) :
    ExceptT Failure m Report := do
  match destination.path? config manifest.fileName with
  | none => return { out := manifest.text }
  | some path => match ← Files.put (m := m) path manifest.text with
    | .error e => throw (.write e)
    | .ok _ => return {}

/-- What a request does under a configuration. -/
def Request.run (config : Config) : Request → ExceptT Failure m Report
  | validate graph output => do
    return validateReport (← openStore graph config).issues output
  | connectCheck graph source target => do
    return connectReport (← openStore graph config).snapshot source target
  | generate graph target destination => do
    match (← openStore graph config).generate (some target) with
    | .rendered manifest => deliver config destination manifest
    | refused => return { code := 1, err := refused.text }

/-- Runs a command. -/
def Invocation.run (i : Invocation) : m Report := do
  let attempt : ExceptT Failure m Report := do
    match ← loadConfig (m := m) i.config with
    | .error e => throw (.load e)
    | .ok config => i.request.run config
  match ← attempt.run with
  | .ok report => return report
  | .error failure => return { code := 1, err := failure.report }

end Run
end NetGraph
