import ThrowCatch.Discovery
import ThrowCatch.Engine
import ThrowCatch.Logging
import ThrowCatch.Render.Format
import ThrowCatch.Settings.Load

/-!
The command line as a function: from the arguments, the environment and a
file system to what is printed and the exit code. Three commands share their
options; an argument that no command understands ends the run before anything
else is looked at.
-/

namespace ThrowCatch.CommandLine

inductive Command
  | scan | trace | coverage
  deriving DecidableEq, Repr

def Command.ofName? (s : String) : Option Command :=
  if s == "scan" then some .scan
  else if s == "trace" then some .trace
  else if s == "coverage" then some .coverage
  else none

inductive Choice
  | format | exclude | config | workers | failUnder | verbose | quiet
  deriving DecidableEq, Repr

namespace Choice

def takesValue : Choice → Bool
  | .verbose => false
  | .quiet => false
  | _ => true

def long : Choice → String
  | .format => "--format"
  | .exclude => "--exclude"
  | .config => "--config"
  | .workers => "--workers"
  | .failUnder => "--fail-under"
  | .verbose => "--verbose"
  | .quiet => "--quiet"

def short? : Choice → Option Char
  | .format => some 'f'
  | .exclude => some 'e'
  | .config => some 'c'
  | .workers => some 'w'
  | .failUnder => none
  | .verbose => some 'v'
  | .quiet => some 'q'

/-- The options of a command. -/
def all (c : Command) : List Choice :=
  [format, exclude, config, workers, verbose, quiet] ++
    if c = .coverage then [failUnder] else []

end Choice

/-- An option with its value, empty for an option that takes none. -/
structure Setting where
  choice : Choice
  value : String
  deriving DecidableEq, Repr

/-- What one argument says. `pending` is an option whose value is the next
argument. -/
inductive Reading
  | word
  | refused
  | settings (found : List Setting)
  | pending (found : List Setting) (choice : Choice)
  deriving DecidableEq, Repr

/-- Reads a long option, with its value after an equals sign. -/
def readLong (c : Command) (arg : String) : Reading :=
  let cs := arg.toList
  let name := String.ofList (cs.takeWhile (· != '='))
  let value? := match cs.dropWhile (· != '=') with
    | [] => none
    | _ :: value => some (String.ofList value)
  match (Choice.all c).find? fun o => o.long == name with
  | none => .refused
  | some o =>
    match o.takesValue, value? with
    | true, some value => .settings [⟨o, value⟩]
    | true, none => .pending [] o
    | false, some _ => .refused
    | false, none => .settings [⟨o, ""⟩]

/-- Reads letters behind one dash. A letter that takes a value takes the rest
of the argument, when there is a rest. -/
def readShort (c : Command) (found : List Setting) : List Char → Reading
  | [] => .settings found
  | letter :: rest =>
    match (Choice.all c).find? fun o => o.short? == some letter with
    | none => .refused
    | some o =>
      if o.takesValue then
        if rest.isEmpty then .pending found o
        else .settings (found ++ [⟨o, String.ofList rest⟩])
      else readShort c (found ++ [⟨o, ""⟩]) rest

def readArgument (c : Command) (arg : String) : Reading :=
  match arg.toList with
  | '-' :: '-' :: _ => readLong c arg
  | '-' :: letter :: rest => readShort c [] (letter :: rest)
  | _ => .word

/-- The arguments of a command, sorted into options and words. -/
structure Given where
  settings : List Setting
  words : List String
  deriving DecidableEq, Repr

/-- Reads the arguments of a command. Two dashes end the options. -/
def readArguments (c : Command) : List String → Option Given
  | [] => some ⟨[], []⟩
  | arg :: rest =>
    if arg == "--" then some ⟨[], rest⟩
    else
      match readArgument c arg with
      | .refused => none
      | .word => (readArguments c rest).map fun g => { g with words := arg :: g.words }
      | .settings found =>
        (readArguments c rest).map fun g => { g with settings := found ++ g.settings }
      | .pending found o =>
        match rest with
        | [] => none
        | value :: rest =>
          (readArguments c rest).map fun g =>
            { g with settings := found ++ ⟨o, value⟩ :: g.settings }

namespace Given

/-- All values of an option, in order. -/
def values (g : Given) (o : Choice) : List String :=
  (g.settings.filter fun s => s.choice = o).map (·.value)

/-- The last value of an option. -/
def value? (g : Given) (o : Choice) : Option String := (g.values o).getLast?

def has (g : Given) (o : Choice) : Bool := !(g.values o).isEmpty

end Given

/-- A run that was asked for in full. -/
structure Request where
  command : Command
  name : String
  path : String
  format : Format
  exclude : List String
  config : Option String
  workers : Option Int
  failUnder : Option Int
  verbose : Bool
  quiet : Bool
  deriving Repr

/-- A whole number between bounds. Without a value there is none; the outer
`none` is a value that is refused. -/
def bounded (low high : Int) (value : Option String) : Option (Option Int) :=
  match value with
  | none => some none
  | some text =>
    match ThrowCatch.Reading.int? text with
    | some n => if low ≤ n ∧ n ≤ high then some (some n) else none
    | none => none

/-- The name and the path among the words of a command. -/
def namedPath (c : Command) (words : List String) : Option (String × String) :=
  match c, words with
  | .trace, [name] => some (name, ".")
  | .trace, [name, path] => some (name, path)
  | .trace, _ => none
  | _, [] => some ("", ".")
  | _, [path] => some ("", path)
  | _, _ => none

/-- What a path leads to as it was written; an empty path leads nowhere, and
what ends in a slash or a dot must be a directory. -/
def statText (d : Disk) (path : String) : Option Entry :=
  match d.stat (.ofString path) with
  | .error _ => none
  | .ok e =>
    let asDirectory := Text.endsWith "/" path || Text.endsWith "/." path
    if path == "" || (asDirectory && !e.isDirectory) then none else some e

def isDirectoryText (d : Disk) (path : String) : Bool :=
  match statText d path with
  | some e => e.isDirectory
  | none => false

def isFileText (d : Disk) (path : String) : Bool :=
  match statText d path with
  | some e => !e.isDirectory
  | none => false

def request? (d : Disk) (c : Command) (args : List String) : Option Request := do
  let g ← readArguments c args
  let (name, path) ← namedPath c g.words
  let workers ← bounded 1 32 (g.value? .workers)
  let failUnder ← bounded 0 100 (g.value? .failUnder)
  let config := g.value? .config
  let format ← (Format.ofName ((g.value? .format).getD "rich")).toOption
  if !isDirectoryText d path then none
  else if !(config.all fun p => isFileText d p) then none
  else
    some
      { command := c
        name := name
        path := path
        format := format
        exclude := g.values .exclude
        config := config
        workers := workers
        failUnder := failUnder
        verbose := g.has .verbose
        quiet := g.has .quiet }

/-- How a run ended: its exit code, what was printed, the level of logging,
and the fault that ended it when it was not foreseen. -/
structure Outcome where
  exitCode : Nat
  output : String
  level : Int
  fault : Option Fault

namespace Outcome

/-- The end of a run whose arguments are not understood. -/
def misused : Outcome := ⟨2, "", Logging.warning, none⟩

/-- The end of a run by a fault. Problems are reported to the user. -/
def failed (level : Int) : Fault → Outcome
  | .problem p => ⟨1, Render.unlines (Render.lines ("Error: " ++ p.text)), level, none⟩
  | fault => ⟨1, "", level, some fault⟩

end Outcome

/-- The settings a request sets itself. -/
def Request.overrides (r : Request) : List (String × Value) :=
  (match r.workers with
    | some n => [("workers", .int n)]
    | none => []) ++
    (if r.verbose then [("verbose", .bool true)] else []) ++
    (if r.quiet then [("quiet", .bool true)] else [])

/-- The level of logging that settings ask for. -/
def levelOf (s : Settings) : Int :=
  Logging.level (Settings.isOneOf ["verbose"] s.verbosity)
    (Settings.isOneOf ["quiet"] s.verbosity)

/-- Finds the files of a request and analyses them, one after the other. A pool
of workers gives the same analysis. -/
def analysis (g : Grammar) (d : Disk) (s : Settings) (r : Request) : Except Fault Analysis := do
  let root := Path.ofString r.path
  let found ← Discovery.discover d s root (r.exclude.map .str)
  let engine ← Engine.ofSettings g s
  (engine.analyze d (some root) .empty found.files).1

def notFound (r : Request) (scanned : Nat) : String :=
  match r.format with
  | .json =>
    r.format.printed (Json.pretty (.table [("error", .str r.name), ("found", .bool false)]))
  | .terminal =>
    Render.unlines (Render.lines ("Not found: no declaration or raise of " ++ r.name ++ " in " ++
      toString scanned ++ " file(s)"))

/-- What a request prints of an analysis, and its exit code. -/
def report (r : Request) (a : Analysis) : Except Fault (Nat × String) :=
  match r.command with
  | .scan => .ok (0, r.format.printed (r.format.files a))
  | .trace =>
    match a.trace r.name with
    | .ok flow => .ok (0, r.format.printed (r.format.flow flow))
    | .error _ => .ok (1, notFound r a.analyzed.length)
  | .coverage =>
    let c := a.coverage
    let short := match r.failUnder with
      | some least => decide (c.percentage < least)
      | none => false
    (r.format.coverage c).map fun text => (if short then 2 else 0, r.format.printed text)

/-- Carries a request out. -/
def perform (g : Grammar) (d : Disk) (env : List (String × String)) (r : Request) : Outcome :=
  match Settings.load d (r.config.map .ofString) env r.overrides with
  | .error fault => .failed Logging.warning fault
  | .ok s =>
    match (analysis g d s r).bind (report r) with
    | .error fault => .failed (levelOf s) fault
    | .ok (code, text) => ⟨code, text, levelOf s, none⟩

/-- The command and its arguments. Two dashes may stand before the command. -/
def command? : List String → Option (Command × List String)
  | "--" :: name :: args => (Command.ofName? name).map fun c => (c, args)
  | name :: args => (Command.ofName? name).map fun c => (c, args)
  | [] => none

def run (g : Grammar) (d : Disk) (env : List (String × String)) (args : List String) : Outcome :=
  match command? args with
  | none => .misused
  | some (c, args) =>
    match request? d c args with
    | none => .misused
    | some r => perform g d env r

end ThrowCatch.CommandLine
