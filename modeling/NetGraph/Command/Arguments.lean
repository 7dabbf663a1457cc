import NetGraph.Command

/-!
# The command line

* `Flag` : the options, each of which takes a value, with their spellings;
* `scan` : reads options up to the first argument that is none. A value follows as the next argument
  or is attached: `--out=x`, `-cx`, `-c=x`; it may be empty or a single hyphen, but else does not
  start with a hyphen unless attached;
* `CommandLine.ofArguments` : reads a command line. The configuration's path and the format of log lines
  may stand before or after the command's name, and what stands after it counts. `UsageError` says why
  a command line is refused.
-/

namespace NetGraph

/-- An option with a value. -/
inductive Flag where
  | config | logFormat | graph | output | source | target | out | outDir
  deriving DecidableEq, Repr

namespace Flag

def name : Flag → String
  | config => "config"
  | logFormat => "log-format"
  | graph => "graph"
  | output => "output"
  | source => "source"
  | target => "target"
  | out => "out"
  | outDir => "out-dir"

/-- The options that every command takes, before its name too. -/
def everywhere : List Flag := [config, logFormat]

/-- The values that an option takes. -/
def admits (flag : Flag) (value : String) : Bool :=
  match flag with
  | logFormat | output => (Format.ofName? value).isSome
  | _ => true

end Flag

/-- Why a command line is refused. -/
inductive UsageError where
  | unknownOption (argument : String)
  | unexpectedArgument (argument : String)
  | missingValue (flag : Flag)
  | invalidValue (flag : Flag) (value : String)
  | repeated (flag : Flag)
  | missingOption (flag : Flag)
  | conflict (first second : Flag)
  | missingCommand
  | unknownCommand (name : String)
  deriving DecidableEq, Repr

namespace UsageError

def message : UsageError → String
  | unknownOption argument => s!"unknown option '{argument}'"
  | unexpectedArgument argument => s!"unexpected argument '{argument}'"
  | missingValue flag => s!"option '--{flag.name}' needs a value"
  | invalidValue flag value => s!"option '--{flag.name}' does not take the value '{value}'"
  | repeated flag => s!"option '--{flag.name}' is given twice"
  | missingOption flag => s!"option '--{flag.name}' is missing"
  | conflict first second => s!"option '--{first.name}' excludes '--{second.name}'"
  | missingCommand => "no command is given"
  | unknownCommand name => s!"unknown command '{name}'"

end UsageError

/-- The options of a command line with their values. -/
abbrev Settings := List (Flag × String)

/-- Adds an option, once and with a value that it takes. -/
def Settings.add (s : Settings) (flag : Flag) (value : String) : Except UsageError Settings :=
  if (s.lookup flag).isSome then throw (.repeated flag)
  else if flag.admits value then pure (s ++ [(flag, value)])
  else throw (.invalidValue flag value)

/-! ## Arguments -/

/-- What a single argument is. -/
inductive Argument where
  | help
  /-- An option, with the value that is attached to it. -/
  | option (flag : Flag) (attached : Option String)
  /-- The mark after which no argument is an option. -/
  | endOfOptions
  | plain (text : String)
  | unknown (text : String)
  deriving DecidableEq, Repr

namespace Argument

/-- The text and what follows its first equals sign, if there is one. -/
def splitValue (cs : List Char) : String × Option String :=
  match cs.span (· ≠ '=') with
  | (name, _ :: value) => (String.ofList name, some (String.ofList value))
  | (name, []) => (String.ofList name, none)

/-- An argument that starts with two hyphens. -/
def ofLong (known : List Flag) (text : String) (cs : List Char) : Argument :=
  match splitValue cs with
  | ("help", none) => .help
  | (name, attached) => match known.find? (·.name = name) with
    | some flag => .option flag attached
    | none => .unknown text

/-- An argument that starts with one hyphen. -/
def ofShort (known : List Flag) (text : String) : List Char → Argument
  | 'h' :: _ => .help
  | 'c' :: rest =>
    if .config ∈ known then
      .option .config <| match rest with
        | [] => none
        | '=' :: value => some (String.ofList value)
        | value => some (String.ofList value)
    else .unknown text
  | _ => .unknown text

/-- What an argument is where the options `known` may stand. -/
def classify (known : List Flag) (text : String) : Argument :=
  match text.toList with
  | ['-', '-'] => .endOfOptions
  | '-' :: '-' :: rest => ofLong known text rest
  | ['-'] => .plain text
  | '-' :: rest => ofShort known text rest
  | _ => .plain text

end Argument

/-- Where the reading of options ends. -/
inductive Scanned where
  | help
  /-- At the end of the arguments. -/
  | finished (settings : Settings)
  /-- At an argument that is no option, with those that follow. -/
  | stopped (settings : Settings) (argument : String) (rest : List String)
  deriving Repr

/-- Whether an argument can be the value of the option before it. -/
def isValue (text : String) : Bool := text = "-" || text.toList.head? ≠ some '-'

/-- Reads options up to the first argument that is none. -/
def scan (known : List Flag) (settings : Settings) : List String → Except UsageError Scanned
  | [] => pure (.finished settings)
  | argument :: rest =>
    match Argument.classify known argument with
    | .help => pure .help
    | .unknown text => throw (.unknownOption text)
    | .plain text => pure (.stopped settings text rest)
    | .endOfOptions => match rest with
      | [] => pure (.finished settings)
      | text :: _ => throw (.unexpectedArgument text)
    | .option flag (some value) => do scan known (← settings.add flag value) rest
    | .option flag none => match rest with
      | [] => throw (.missingValue flag)
      | value :: rest =>
        if isValue value then do scan known (← settings.add flag value) rest
        else throw (.missingValue flag)

/-! ## Commands -/

/-- The commands. -/
inductive CommandName where
  | validate | connectCheck | generate
  deriving DecidableEq, Repr

namespace CommandName

def name : CommandName → String
  | validate => "validate"
  | connectCheck => "connect-check"
  | generate => "generate"

def all : List CommandName := [validate, connectCheck, generate]

def ofName? (s : String) : Option CommandName := all.find? (·.name = s)

/-- The options of its own that a command takes. -/
def flags : CommandName → List Flag
  | validate => [.graph, .output]
  | connectCheck => [.graph, .source, .target]
  | generate => [.graph, .target, .out, .outDir]

end CommandName

namespace Settings

def required (s : Settings) (flag : Flag) : Except UsageError String :=
  (s.lookup flag).elim (throw (.missingOption flag)) pure

def format? (s : Settings) (flag : Flag) : Option Format := (s.lookup flag).bind Format.ofName?

/-- Where a manifest goes. -/
def destination (s : Settings) : Except UsageError Destination :=
  match s.lookup .out, s.lookup .outDir with
  | some _, some _ => throw (.conflict .out .outDir)
  | some path, none => pure (.file path)
  | none, some dir => pure (.folder dir)
  | none, none => pure .unsaid

/-- The request of a command with these options. -/
def request (s : Settings) : CommandName → Except UsageError Request
  | .validate => pure (.validate (s.lookup .graph) ((s.format? .output).getD .text))
  | .connectCheck => do
    return .connectCheck (s.lookup .graph) (← s.required .source) (← s.required .target)
  | .generate => do
    return .generate (s.lookup .graph) (← s.required .target) (← s.destination)

end Settings

/-- A command line: a command to run, or a request for help. -/
inductive CommandLine where
  | help
  | run (invocation : Invocation)
  deriving DecidableEq, Repr

namespace CommandLine

/-- The word that asks for help. -/
def helpWord : String := "help"

/-- Help on the command that is named, if one is. -/
def ofHelp : List String → Except UsageError CommandLine
  | [] => pure .help
  | name :: rest =>
    if name = helpWord ∨ (CommandName.ofName? name).isSome then
      match rest with
      | [] => pure .help
      | more :: _ => throw (.unknownCommand more)
    else throw (.unknownCommand name)

/-- Reads what follows the name of a command, after the options `outer`. -/
def ofCommand (outer : Settings) (command : CommandName) (arguments : List String) :
    Except UsageError CommandLine := do
  match ← scan (Flag.everywhere ++ command.flags) [] arguments with
  | .help => return .help
  | .stopped _ argument _ => throw (.unexpectedArgument argument)
  | .finished inner =>
    let all := inner ++ outer
    return .run {
      config := (all.lookup .config).getD defaultConfigPath
      logFormat := all.format? .logFormat
      request := ← inner.request command }

/-- Reads a command line. -/
def ofArguments (arguments : List String) : Except UsageError CommandLine := do
  match ← scan Flag.everywhere [] arguments with
  | .help => return .help
  | .finished _ => throw .missingCommand
  | .stopped outer name rest =>
    if name = helpWord then ofHelp rest
    else match CommandName.ofName? name with
      | some command => ofCommand outer command rest
      | none => throw (.unknownCommand name)

/-- The exit code of a command line that is refused. -/
def usageCode : Nat := 2

end CommandLine
end NetGraph
