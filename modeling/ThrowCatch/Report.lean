import ThrowCatch.Sites.Basic

/-!
Reports on files. A report holds what was found in a file, or the reason why
the file was skipped.
-/

namespace ThrowCatch

structure FileReport where
  path : String
  defined : List Declaration
  raised : List Site
  intercepted : List Site
  unclassified : Int
  failure : Option String
  deriving DecidableEq, Repr

namespace FileReport

/-- The report on a file that could not be analysed. -/
def unavailable (path reason : String) : FileReport :=
  ⟨path, [], [], [], 0, some reason⟩

def ok (r : FileReport) : Bool := r.failure.isNone

def isEmpty (r : FileReport) : Bool :=
  r.defined.isEmpty && r.raised.isEmpty && r.intercepted.isEmpty

def toValue (r : FileReport) : Value :=
  .table ([("path", .str r.path),
    ("defined", .list (r.defined.map Declaration.toValue)),
    ("raised", .list (r.raised.map Site.toValue)),
    ("intercepted", .list (r.intercepted.map Site.toValue)),
    ("unclassified_raises", .int r.unclassified)] ++
    match r.failure with
    | some reason => [("failure", .str reason)]
    | none => [])

end FileReport

/-- The reports of one run, in the order of its files. -/
structure Analysis where
  files : List FileReport
  deriving DecidableEq, Repr

namespace Analysis

def empty : Analysis := ⟨[]⟩

def analyzed (a : Analysis) : List FileReport := a.files.filter (·.ok)

def skipped (a : Analysis) : List FileReport := a.files.filter fun r => !r.ok

/-- The first report on a path. -/
def get? (a : Analysis) (path : String) : Option FileReport :=
  a.files.find? fun r => r.path == path

def skippedValue (r : FileReport) : Value :=
  .table [("path", .str r.path), ("reason", .str (r.failure.getD ""))]

def toValue (a : Analysis) : Value :=
  .table [("files", .list (a.files.map FileReport.toValue)),
    ("skipped", .list (a.skipped.map skippedValue))]

end Analysis

end ThrowCatch
