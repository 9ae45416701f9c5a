import ThrowCatch.Report
import ThrowCatch.Sites.Collected
import ThrowCatch.Sites.Declared

/-!
The way of one error through the files. Names are matched across all files,
with no regard to modules: a declaration and an intercept by the whole name, a
raise by a part of it, so that a qualified raise is found too.
-/

namespace ThrowCatch

structure Flow where
  name : String
  definedIn : Option String
  raisedIn : List String
  interceptedIn : List String
  unguardedIn : List String
  duplicateDefinitions : List String
  deriving DecidableEq, Repr

namespace Flow

/-- A flow is unguarded only where it is raised. -/
def check (f : Flow) : Except Fault Flow :=
  if f.unguardedIn.all fun p => f.raisedIn.contains p then .ok f
  else .error .unguardedNotRaised

def isIntercepted (f : Flow) : Bool := !f.interceptedIn.isEmpty

/-- Intercepting files for each hundred raising files, zero when no file
raises. -/
def coverageRatio (f : Flow) : Double :=
  if f.raisedIn.isEmpty then .zero false
  else .ofQuotient false (100 * f.interceptedIn.length) f.raisedIn.length

def toEntries (f : Flow) : List (String × Value) :=
  let paths := fun (ps : List String) => Value.list (ps.map .str)
  [("error", .str f.name),
    ("defined_in", match f.definedIn with
      | some p => .str p
      | none => .null),
    ("raised_in", paths f.raisedIn), ("intercepted_in", paths f.interceptedIn),
    ("unguarded_in", paths f.unguardedIn),
    ("duplicate_definitions", paths f.duplicateDefinitions)]

def toValue (f : Flow) : Value := .table f.toEntries

end Flow

namespace FileReport

def defines (r : FileReport) (name : String) : Bool :=
  r.defined.any fun d => d.name == name

def raises (r : FileReport) (name : String) : Bool :=
  r.raised.any fun s => Text.contains name s.name

def intercepts (r : FileReport) (name : String) : Bool :=
  r.intercepted.any fun s => s.name == name

end FileReport

namespace Analysis

/-- All error types declared in the analysed files, in order. -/
def declarations (a : Analysis) : List Declaration :=
  a.analyzed.flatMap (·.defined)

/-- The names of the error types that have one, each once, in the order in
which they first appear. -/
def declaredNames (a : Analysis) : List String :=
  Sites.distinct ((a.declarations.map (·.name)).filter (· != Sites.anonymousName))

/-- Whether some analysed file declares or raises a name. -/
def knows (a : Analysis) (name : String) : Bool :=
  a.analyzed.any fun r => r.defines name || r.raises name

/-- The paths of the analysed files with a property, each once. -/
def pathsWhere (a : Analysis) (p : FileReport → Bool) : List String :=
  Sites.distinct ((a.analyzed.filter p).map (·.path))

/-- The flow of a name. The first declaring file defines it. -/
def flow (a : Analysis) (name : String) : Flow :=
  let defining := a.pathsWhere (·.defines name)
  let raised := a.pathsWhere (·.raises name)
  let intercepted := a.pathsWhere (·.intercepts name)
  { name := name
    definedIn := defining.head?
    raisedIn := raised
    interceptedIn := intercepted
    unguardedIn := raised.filter fun p => !intercepted.contains p
    duplicateDefinitions := defining.drop 1 }

/-- One flow for each declared name. -/
def flows (a : Analysis) : List Flow := a.declaredNames.map a.flow

/-- The flow of a name that some file declares or raises. -/
def trace (a : Analysis) (name : String) : Except Problem Flow :=
  if a.knows name then .ok (a.flow name)
  else .error (.unknownTarget name a.analyzed.length)

end Analysis

end ThrowCatch
