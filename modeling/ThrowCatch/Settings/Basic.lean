import ThrowCatch.Fault
import ThrowCatch.Text.Search

/-!
Settings of a run. Every field holds a value as it was given; checking
refuses the values a run cannot work with, field by field in a fixed order.
-/

namespace ThrowCatch

structure Settings where
  workers : Value
  excludePatterns : Value
  extensions : Value
  maxFileSizeMb : Value
  maxFiles : Value
  allowHiddenFiles : Value
  followSymlinks : Value
  errorSupertypes : Value
  supertypeMatch : Value
  implicitCatchType : Value
  strictParse : Value
  verbosity : Value
  deriving Repr, Inhabited

namespace Settings

def texts (items : List String) : Value := .list (items.map .str)

/-- Names that mark a class as an error type when it extends one of them. -/
def defaultSupertypes : List String :=
  ["Error", "TypedError", "TypeError", "RangeError", "ReferenceError"]

def defaultExclusions : List String :=
  ["node_modules/*", "dist/*", "build/*", "coverage/*", ".git/*", "*.test.ts", "*.spec.ts",
    "*.test.tsx", "*.spec.tsx", "*.d.ts", "*.min.js", "*.bundle.js"]

def defaultExtensions : List String :=
  [".cjs", ".cts", ".js", ".jsx", ".mjs", ".mts", ".ts", ".tsx"]

def defaults : Settings where
  workers := .null
  excludePatterns := texts defaultExclusions
  extensions := texts defaultExtensions
  maxFileSizeMb := .float (.ofInt 5)
  maxFiles := .int 10000
  allowHiddenFiles := .bool false
  followSymlinks := .bool false
  errorSupertypes := texts defaultSupertypes
  supertypeMatch := .str "substring"
  implicitCatchType := .str "unknown"
  strictParse := .bool false
  verbosity := .str "normal"

/-- The names of the fields, in the order of their declaration. -/
def keys : List String :=
  ["workers", "exclude_patterns", "extensions", "max_file_size_mb", "max_files",
    "allow_hidden_files", "follow_symlinks", "error_supertypes", "supertype_match",
    "implicit_catch_type", "strict_parse", "verbosity"]

/-- All fields with their names. -/
def entries (s : Settings) : List (String × Value) :=
  keys.zip [s.workers, s.excludePatterns, s.extensions, s.maxFileSizeMb, s.maxFiles,
    s.allowHiddenFiles, s.followSymlinks, s.errorSupertypes, s.supertypeMatch,
    s.implicitCatchType, s.strictParse, s.verbosity]

/-- The settings with the given fields and the defaults otherwise. -/
def fill (given : List (String × Value)) : Settings :=
  let get := fun key (other : Value) => (Value.field? given key).getD other
  { workers := get "workers" defaults.workers
    excludePatterns := get "exclude_patterns" defaults.excludePatterns
    extensions := get "extensions" defaults.extensions
    maxFileSizeMb := get "max_file_size_mb" defaults.maxFileSizeMb
    maxFiles := get "max_files" defaults.maxFiles
    allowHiddenFiles := get "allow_hidden_files" defaults.allowHiddenFiles
    followSymlinks := get "follow_symlinks" defaults.followSymlinks
    errorSupertypes := get "error_supertypes" defaults.errorSupertypes
    supertypeMatch := get "supertype_match" defaults.supertypeMatch
    implicitCatchType := get "implicit_catch_type" defaults.implicitCatchType
    strictParse := get "strict_parse" defaults.strictParse
    verbosity := get "verbosity" defaults.verbosity }

def refuse (key : String) (value : Value) (reason : String) : Except Fault Unit :=
  .error (.problem (.invalidSetting key value reason))

/-- The number of a value that is about to be compared by `operator`. -/
def comparable (operator : String) (v : Value) : Except Fault Number :=
  match v.number? with
  | some n => .ok n
  | none => .error (.notComparable operator v.kindName)

/-- The members of a value that is about to be gone through. -/
def membersOf (v : Value) : Except Fault (List Value) :=
  match v.members? with
  | some vs => .ok vs
  | none => .error (.notIterable v.kindName)

def checkAtLeastOne (key : String) (v : Value) : Except Fault Unit := do
  let n ← comparable "<" v
  if n.lt (.int 1) then refuse key v "must be at least 1" else pure ()

def checkWorkers (v : Value) : Except Fault Unit :=
  match v with
  | .null => pure ()
  | v => checkAtLeastOne "workers" v

def checkSize (v : Value) : Except Fault Unit := do
  let n ← comparable "<=" v
  if n.le (.int 0) then refuse "max_file_size_mb" v "must be positive" else pure ()

def checkExtension (v : Value) : Except Fault Unit :=
  match v with
  | .str s =>
    if Text.startsWith "." s then pure () else refuse "extensions" v "must start with '.'"
  | v => .error (.noMethod v.kindName "startswith")

def isOneOf (words : List String) : Value → Bool
  | .str s => words.contains s
  | _ => false

/-- Refuses settings that a run cannot work with. -/
def check (s : Settings) : Except Fault Unit := do
  checkWorkers s.workers
  checkSize s.maxFileSizeMb
  checkAtLeastOne "max_files" s.maxFiles
  (← membersOf s.extensions).forM checkExtension
  if !s.errorSupertypes.truthy then
    refuse "error_supertypes" s.errorSupertypes "must not be empty"
  if !isOneOf ["substring", "exact"] s.supertypeMatch then
    refuse "supertype_match" s.supertypeMatch "must be 'substring' or 'exact'"
  if !s.implicitCatchType.truthy then
    refuse "implicit_catch_type" s.implicitCatchType "must not be empty"
  if !isOneOf ["quiet", "normal", "verbose"] s.verbosity then
    refuse "verbosity" s.verbosity "must be one of quiet, normal, verbose"

/-- Settings from named values. A name that no field has is refused before any
value is looked at. -/
def ofEntries (given : List (String × Value)) : Except Fault Settings :=
  match given.find? fun (k, _) => !keys.contains k with
  | some (k, _) => .error (.unknownSetting k)
  | none =>
    let s := fill given
    (s.check).map fun _ => s

/-- The greatest size of a file in bytes: so many times 1024 times 1024,
without what is after the point. -/
def maxFileSizeBytes (s : Settings) : Except Fault Int :=
  match s.maxFileSizeMb.number? with
  | some (.int n) => .ok (n * 1024 * 1024)
  | some (.float x) =>
    match x.scaleUp 20 with
    | .nan => .error .undefinedInteger
    | .infinite _ => .error .infiniteInteger
    | y => .ok (y.truncate?.getD 0)
  | none => .error (.notComparable "*" s.maxFileSizeMb.kindName)

end Settings

end ThrowCatch
