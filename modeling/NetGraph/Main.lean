import NetGraph.Command.Arguments

/-!
# The program

Runs a command on the file system. Everything that a command decides is in `Invocation.run`.
-/

namespace NetGraph

/-- The refusal of the system behind an error. -/
def FileError.ofError (e : IO.Error) : FileError :=
  match e with
  | .noFileOrDirectory .. => .notFound
  | .alreadyExists .. => .alreadyExists
  | .inappropriateType _ code details | .invalidArgument _ code details =>
    if code = 20 then .notADirectory
    else if code = 21 then .isADirectory
    else if code = 36 then .nameTooLong
    else .other details code.toNat
  | .permissionDenied _ code details | .resourceExhausted _ code details => .other details code.toNat
  | .otherError code details => .other details code.toNat
  | e => .other (toString e) 0

/-- Runs an action and gives its error as a value. -/
def attempt {α : Type} (act : IO α) : IO (Except FileError α) := do
  try return .ok (← act)
  catch e => return .error (.ofError e)

/-- A directory can be opened under its own dot entry, and nothing else can. -/
def opensAsDir (path : String) : IO Bool := do
  match ← attempt (IO.FS.Handle.mk (path ++ "/.") .read) with
  | .ok _ => return true
  | .error _ => return false

instance : Files IO where
  readBytes path := attempt (IO.FS.readBinFile path)
  writeText path text := attempt (IO.FS.writeFile path text)
  makeDir path := attempt (IO.FS.createDir path)
  isDir path := opensAsDir path

/-- How to call the program. -/
def usage : String := String.intercalate "\n" [
  "Usage: netgraphctl [-c FILE] [--log-format text|json] COMMAND",
  "",
  "Commands:",
  "  validate [--graph FILE] [--output text|json]",
  "  connect-check --source ID --target ID [--graph FILE]",
  "  generate --target ID [--graph FILE] [--out FILE | --out-dir DIR]",
  ""]

end NetGraph

open NetGraph in
def main (arguments : List String) : IO UInt32 := do
  match CommandLine.ofArguments arguments with
  | .error e =>
    IO.eprint s!"error: {e.message}\n\n{usage}"
    return CommandLine.usageCode.toUInt32
  | .ok .help =>
    IO.print usage
    return 0
  | .ok (.run invocation) =>
    let report ← invocation.run (m := IO)
    IO.print report.out
    IO.eprint report.err
    return report.code.toUInt32
