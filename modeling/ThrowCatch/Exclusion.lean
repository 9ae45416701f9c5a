import ThrowCatch.Disk.Glob
import ThrowCatch.Fault

/-!
Exclusion of files by patterns. A pattern `name/*` excludes everything below a
directory of that name, wherever it is; every other pattern is matched against
the end of the path.
-/

namespace ThrowCatch.Exclusion

/-- The directory name of a pattern of the form `name/*`. -/
def directoryName? (pattern : String) : Option String :=
  if Text.endsWith "/*" pattern then
    let name := Text.dropEnd 2 pattern
    if name.toList.contains '/' then none else some name
  else none

def excludedBy (path : Path) (pattern : Value) : Except Fault Bool :=
  match pattern with
  | .str pattern =>
    let inDirectory := match directoryName? pattern with
      | some name => path.parts.dropLast.contains name
      | none => false
    if inDirectory then .ok true
    else
      match Glob.accepts? (.ofString pattern) path with
      | some found => .ok found
      | none => .error .emptyPattern
  | v => .error (.noMethod v.kindName "endswith")

/-- Whether some pattern excludes a path. The patterns are tried in order, and
the first that does ends the search. -/
def excluded (path : Path) : List Value → Except Fault Bool
  | [] => .ok false
  | p :: ps =>
    match excludedBy path p with
    | .ok true => .ok true
    | .ok false => excluded path ps
    | .error e => .error e

end ThrowCatch.Exclusion
