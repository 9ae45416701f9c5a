import ThrowCatch.Disk.Basic
import ThrowCatch.Settings.Environment
import ThrowCatch.Toml.Document

/-!
Putting settings together from all their sources. A later source wins over an
earlier one: the file in the home directory, the file in the working
directory, a file named by the caller, the environment, and the caller.
-/

namespace ThrowCatch.Settings

/-- Why a settings file gives no settings: the text is not a document, or the
file cannot be read at all. -/
inductive FileFault
  | notToml
  | unreadable (path : String)
  deriving DecidableEq, Repr

def FileFault.text : FileFault → String
  | .notToml => "<toml error>"
  | .unreadable path => "[Errno 21] Is a directory: " ++ Text.quoted path

/-- The entries that a document sets. They may stand at the top or all together
in a table of the program's own name. -/
def ownEntries (document : List (String × Value)) : List (String × Value) :=
  match Value.field? document "errorflow" with
  | some (.table inner) => inner
  | _ => document

def ofFile (d : Disk) (p : Path) : Except FileFault (List (String × Value)) :=
  match d.read p with
  | .error _ => .error (.unreadable p.text)
  | .ok bytes =>
    match Toml.readBytes? bytes with
    | none => .error .notToml
    | some document => .ok (ownEntries document)

/-- The entries of a file, a fault being reported as a problem of the
configuration. -/
def fromFile (d : Disk) (what : String) (p : Path) : Except Fault (List (String × Value)) :=
  match ofFile d p with
  | .ok entries => .ok entries
  | .error e =>
    .error (.problem
      (.configuration ("Invalid " ++ what ++ " '" ++ p.text ++ "': " ++ e.text)))

/-- Whether a path leads anywhere. One that is too long cannot be looked up. -/
def isThere (d : Disk) (p : Path) : Except Fault Bool :=
  match d.stat p with
  | .ok _ => .ok true
  | .error .nameTooLong => .error (.pathTooLong p.text)
  | .error _ => .ok false

def fromOptionalFile (d : Disk) (what : String) (p : Path) :
    Except Fault (List (String × Value)) := do
  if ← isThere d p then fromFile d what p else pure []

/-- A switch of the caller that is on sets the verbosity; then it is gone. -/
def takeSwitch (key word : String) (given : List (String × Value)) : List (String × Value) :=
  match Value.field? given key with
  | none => given
  | some v =>
    let given := if v.truthy then Value.put given "verbosity" (.str word) else given
    given.filter fun (k, _) => k != key

def isPresent : Value → Bool
  | .null => false
  | _ => true

/-- The values of the caller. The switches for loud and quiet runs are taken
out, quiet last, and so are values that are absent. -/
def overrides (given : List (String × Value)) : List (String × Value) :=
  (takeSwitch "quiet" "quiet" (takeSwitch "verbose" "verbose" given)).filter
    fun (_, v) => isPresent v

def globalFile (d : Disk) : Path := ⟨.root, d.home ++ [".errorflow.toml"]⟩

def projectFile (d : Disk) : Path := ⟨.root, d.working ++ ["errorflow.toml"]⟩

/-- The entries of the file the caller names, which has to be there. -/
def explicitEntries (d : Disk) (file : Option Path) : Except Fault (List (String × Value)) :=
  match file with
  | none => .ok []
  | some p => do
    if ← isThere d p then fromFile d "config file" p
    else .error (.problem (.configuration ("Config file not found: " ++ p.text)))

/-- All entries, the later sources over the earlier ones. -/
def gather (d : Disk) (file : Option Path) (env : List (String × String))
    (given : List (String × Value)) : Except Fault (List (String × Value)) := do
  let home ← fromOptionalFile d "global config" (globalFile d)
  let project ← fromOptionalFile d "project config" (projectFile d)
  let explicit ← explicitEntries d file
  let surroundings ← ofEnvironment env
  pure ([home, project, explicit, surroundings, overrides given].foldl Value.merge [])

/-- A misuse of a value becomes a problem of the configuration. A value that
lacks a method is let through as it is. -/
def wrap : Fault → Fault
  | .problem p => .problem p
  | .noMethod kind method => .noMethod kind method
  | e => .problem (.configuration ("Invalid configuration: " ++ e.message))

def load (d : Disk) (file : Option Path) (env : List (String × String))
    (given : List (String × Value)) : Except Fault Settings := do
  let entries ← gather d file env given
  (ofEntries entries).mapError wrap

end ThrowCatch.Settings
