import ThrowCatch.Fault

/-!
What the analysis finds in a file: declarations of error types, statements
that raise an error, and clauses that intercept one.
-/

namespace ThrowCatch

/-- A line of a file, counted from one. -/
structure Location where
  file : String
  line : Int
  deriving DecidableEq, Repr

namespace Location

def check (l : Location) : Except Fault Location :=
  if l.line < 1 then .error (.lineNotPositive l.line) else .ok l

def text (l : Location) : String := l.file ++ ":" ++ toString l.line

def toValue (l : Location) : Value :=
  .table [("file", .str l.file), ("line", .int l.line)]

end Location

/-- A class that is taken for an error type because of what it extends. -/
structure Declaration where
  name : String
  supertype : String
  location : Location
  deriving DecidableEq, Repr

def Declaration.toValue (d : Declaration) : Value :=
  .table [("name", .str d.name), ("supertype", .str d.supertype),
    ("location", d.location.toValue)]

/-- Whether a site raises a new error, raises one at hand again, or intercepts
one. -/
inductive SiteKind
  | raised | reraised | intercepted
  deriving DecidableEq, Repr

namespace SiteKind

def text : SiteKind → String
  | .raised => "raised"
  | .reraised => "re-raised"
  | .intercepted => "intercepted"

def ofText (s : String) : Except Fault SiteKind :=
  match [raised, reraised, intercepted].find? fun k => k.text == s with
  | some k => .ok k
  | none => .error (.unknownSiteKind s)

def isRaise : SiteKind → Bool
  | .intercepted => false
  | _ => true

end SiteKind

structure Site where
  name : String
  kind : SiteKind
  location : Location
  deriving DecidableEq, Repr

def Site.toValue (s : Site) : Value :=
  .table [("name", .str s.name), ("kind", .str s.kind.text), ("location", s.location.toValue)]

end ThrowCatch
