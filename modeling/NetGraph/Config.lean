import NetGraph.Yaml.Reader

/-!
# The configuration

A `Config` says what the command line need not say: the graph's file, the directory for manifests and
the format of log lines. `Config.ofYaml` reads it; two keys may be written with a hyphen.
-/

namespace NetGraph
open Yaml Yaml.Reader

structure Config where
  graph : Option String := none
  outDir : Option String := none
  logFormat : Option String := none
  deriving DecidableEq, Repr, Inhabited

namespace Config

/-- The field that a key stands for. -/
def fieldOf (key : String) : Option String :=
  if key = "graph" then some "graph"
  else if key = "out_dir" ∨ key = "out-dir" then some "out_dir"
  else if key = "log_format" ∨ key = "log-format" then some "log_format"
  else none

def read : Spot → Yaml.Node → Reader Config :=
  record "struct NetgraphConfigFile" fieldOf [] ({} : Config)
    fun c field spot v => do
      if field = "graph" then return { c with graph := ← optional string spot v }
      else if field = "out_dir" then return { c with outDir := ← optional string spot v }
      else return { c with logFormat := ← optional string spot v }

/-- The configuration of a document. -/
def ofYaml (text : String) : Except ReadError Config := (Document.ofText text).read read

end Config
end NetGraph
