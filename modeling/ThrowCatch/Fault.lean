import ThrowCatch.Text.Quoted
import ThrowCatch.Value

/-!
What can go wrong. A problem is a message for the user with named details; it
belongs to a class, and classes form a small tree. The other faults are
misuses of a value: a number where a text was needed, an empty pattern, a
size that is no number.
-/

namespace ThrowCatch

inductive ProblemClass
  | general
  | analysis
  | sourceUnavailable
  | unknownTarget
  | configuration
  | invalidPath
  | invalidSetting
  deriving DecidableEq, Repr

namespace ProblemClass

/-- The classes a class belongs to, itself first. -/
def lineage : ProblemClass → List ProblemClass
  | .general => [.general]
  | .analysis => [.analysis, .general]
  | .sourceUnavailable => [.sourceUnavailable, .analysis, .general]
  | .unknownTarget => [.unknownTarget, .analysis, .general]
  | .configuration => [.configuration, .general]
  | .invalidPath => [.invalidPath, .configuration, .general]
  | .invalidSetting => [.invalidSetting, .configuration, .general]

end ProblemClass

structure Problem where
  kind : ProblemClass
  summary : String
  details : List (String × String)
  deriving DecidableEq, Repr

namespace Problem

/-- The summary, followed by the details when there are any. -/
def text (p : Problem) : String :=
  if p.details.isEmpty then p.summary
  else p.summary ++ " (" ++ Text.join ", " (p.details.map fun (k, v) => k ++ "=" ++ v) ++ ")"

def sourceUnavailable (path reason : String) : Problem :=
  ⟨.sourceUnavailable, "Source unavailable: " ++ path, [("filepath", path), ("reason", reason)]⟩

def unknownTarget (name : String) (scanned : Int) : Problem :=
  ⟨.unknownTarget, "Error not found: " ++ name,
    [("error", name), ("files_scanned", toString scanned)]⟩

def configuration (summary : String) : Problem := ⟨.configuration, summary, []⟩

def invalidPath (path reason : String) : Problem :=
  ⟨.invalidPath, "Invalid path: " ++ path, [("path", path), ("reason", reason)]⟩

def invalidSetting (key : String) (value : Value) (reason : String) : Problem :=
  ⟨.invalidSetting, "Invalid configuration for " ++ key ++ ": " ++ value.text,
    [("key", key), ("value", value.text), ("reason", reason)]⟩

end Problem

inductive Fault
  | problem (p : Problem)
  | lineNotPositive (line : Int)
  | unknownSiteKind (kind : String)
  | unguardedNotRaised
  | emptyPattern
  | nullByte
  | unknownFormat (name : String)
  | quotientTooLarge
  | infiniteInteger
  | undefinedInteger
  | unknownSetting (key : String)
  | notComparable (operator kind : String)
  | notIterable (kind : String)
  | noMethod (kind method : String)
  | notWithin (kind : String)
  | unhashable (kind : String)
  | badInteger (text : String)
  | badDecimal (text : String)
  | badTruth (text : String)
  | badSlice
  | pathTooLong (path : String)
  deriving DecidableEq, Repr

namespace Fault

def message : Fault → String
  | .problem p => p.text
  | .lineNotPositive line => "line must be positive, got " ++ toString line
  | .unknownSiteKind kind => Text.quoted kind ++ " is not a valid SiteKind"
  | .unguardedNotRaised => "unguarded_in must be a subset of raised_in"
  | .emptyPattern => "empty pattern"
  | .nullByte => "embedded null byte"
  | .unknownFormat name =>
    "Unknown formatter: " ++ Text.quoted name ++ ". Choose from: json, rich"
  | .quotientTooLarge => "integer division result too large for a float"
  | .infiniteInteger => "cannot convert float infinity to integer"
  | .undefinedInteger => "cannot convert float NaN to integer"
  | .unknownSetting key =>
    -- the name of the receiver is taken already
    if key == "self" then "AnalysisConfig.__init__() got multiple values for argument 'self'"
    else "AnalysisConfig.__init__() got an unexpected keyword argument '" ++ key ++ "'"
  | .notComparable operator kind =>
    "'" ++ operator ++ "' not supported between instances of '" ++ kind ++ "' and 'int'"
  | .notIterable kind => "'" ++ kind ++ "' object is not iterable"
  | .noMethod kind method =>
    "'" ++ kind ++ "' object has no attribute '" ++ method ++ "'"
  | .notWithin kind => "'in <string>' requires string as left operand, not " ++ kind
  | .unhashable kind => "unhashable type: '" ++ kind ++ "'"
  | .badInteger text =>
    "invalid literal for int() with base 10: " ++ Text.quoted text
  | .badDecimal text => "could not convert string to float: " ++ Text.quoted text
  | .badTruth text => "expected true/false, got '" ++ text ++ "'"
  | .badSlice =>
    "slice indices must be integers or None or have an __index__ method"
  | .pathTooLong path => "[Errno 36] File name too long: " ++ Text.quoted path

end Fault

end ThrowCatch
