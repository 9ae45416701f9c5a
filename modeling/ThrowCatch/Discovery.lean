import ThrowCatch.Disk.Basic
import ThrowCatch.Exclusion
import ThrowCatch.Settings.Basic
import ThrowCatch.Text.Lower

/-!
Finding the files to analyse below a directory. Directories that are hidden or
excluded are not entered; a directory is tried against the patterns by the
path of a file `_` in it.
-/

namespace ThrowCatch.Discovery

structure Rules where
  exclude : List Value
  extensions : List String
  hidden : Bool
  follow : Bool

def isHidden (name : String) : Bool := Text.startsWith "." name

/-- Whether a directory is entered, given its path below the root. -/
def enters (rules : Rules) (inside : Path) (name : String) : Except Fault Bool :=
  if isHidden name && !rules.hidden then .ok false
  else (Exclusion.excluded ((inside.push name).push "_") rules.exclude).map (!·)

/-- Whether a file is taken. `link` tells that it is a symbolic link. -/
def takes (rules : Rules) (inside : Path) (name : String) (link : Bool) : Except Fault Bool :=
  if isHidden name && !rules.hidden then .ok false
  else if !rules.extensions.contains (Text.lower (Path.suffixOf name)) then .ok false
  else if link && !rules.follow then .ok false
  else (Exclusion.excluded (inside.push name) rules.exclude).map (!·)

/-- The directory an entry leads to, when it leads to one within the links
that may still be passed. -/
def directory? (d : Disk) (links : Nat) (here : List String) (name : String) (e : Entry) :
    Option (Place × Entry) :=
  match e with
  | .directory es => some (⟨here ++ [name], links⟩, .directory es)
  | .file _ => none
  | .link _ =>
    match d.walkNames true links here [name] with
    | .error _ => none
    | .ok place =>
      match d.top.at? place.names with
      | some (.directory es) => some (place, .directory es)
      | _ => none

/-- Where the walk is: the real names of the directory, how many links may
still be passed, and its path below the root. -/
structure Position where
  here : List String
  links : Nat
  inside : Path

def Position.enter (p : Position) (name : String) (place : Place) : Position :=
  ⟨place.names, place.links, p.inside.push name⟩

def entered (d : Disk) (rules : Rules) (p : Position) (entries : List (String × Entry)) :
    Except Fault (List String) := do
  let kept ← entries.filterM fun (name, e) =>
    if (directory? d p.links p.here name e).isSome then enters rules p.inside name
    else Except.ok false
  pure (kept.map (·.1))

/-- The files that are taken from a directory itself, by their paths below the
root. -/
def taken (d : Disk) (rules : Rules) (p : Position) (entries : List (String × Entry)) :
    Except Fault (List Path) := do
  let kept ← entries.filterM fun (name, e) =>
    if (directory? d p.links p.here name e).isSome then Except.ok false
    else takes rules p.inside name e.isLink
  pure (kept.map fun (n, _) => p.inside.push n)

mutual

/-- The files taken from a directory and from all directories entered below
it. `jump` walks the directory a link leads to. The limits of the system on the
length of a path, and of the interpreter on its depth, are not part of the
walk. -/
def walk (d : Disk) (rules : Rules) (jump : Position → Entry → Except Fault (List Path))
    (p : Position) : Entry → Except Fault (List Path)
  | .directory entries => do
    let dirs ← entered d rules p entries
    let files ← taken d rules p entries
    let below ← walkEach d rules jump p dirs entries
    pure (files ++ below)
  | _ => pure []

def walkEach (d : Disk) (rules : Rules) (jump : Position → Entry → Except Fault (List Path))
    (p : Position) (dirs : List String) : List (String × Entry) → Except Fault (List Path)
  | [] => pure []
  | (name, e) :: rest => do
    let found ←
      if !dirs.contains name then pure []
      else
        match e with
        | .directory es =>
          walk d rules jump (p.enter name ⟨p.here ++ [name], p.links⟩) (.directory es)
        | .link target =>
          if !rules.follow then pure []
          else
            match directory? d p.links p.here name (.link target) with
            | some (place, inner) => jump (p.enter name place) inner
            | none => pure []
        | .file _ => pure []
    let others ← walkEach d rules jump p dirs rest
    pure (found ++ others)

end

/-- The walk with a bound on how often a link is followed. A path can pass
`Disk.maxLinks` links, so that many are enough. -/
def walkLinks (d : Disk) (rules : Rules) : Nat → Position → Entry → Except Fault (List Path)
  | 0 => fun _ _ => pure []
  | n + 1 => fun p e => walk d rules (walkLinks d rules n) p e

/-- What a search gives: the files, and a remark when there were too many. -/
structure Found where
  files : List Path
  warnings : List String

def limited (limit : Value) (files : List Path) : Except Fault Found :=
  match limit.number? with
  | none => .ok ⟨files, []⟩
  | some n =>
    if n.lt (.int files.length) then
      let warning := "Found " ++ toString files.length ++ " files, analyzing the first " ++
        limit.text ++ " (max_files)"
      match n with
      | .int n => .ok ⟨files.take n.toNat, [warning]⟩
      | .float _ => .error .badSlice
    else .ok ⟨files, []⟩

def rulesOf (s : Settings) (extra : List Value) : Except Fault Rules := do
  let patterns ← Settings.membersOf s.excludePatterns
  let extensions ← Settings.membersOf s.extensions
  pure
    { exclude := patterns ++ extra
      extensions := extensions.map fun v => Text.lower v.text
      hidden := s.allowHiddenFiles.truthy
      follow := s.followSymlinks.truthy }

/-- All files to analyse below `root`, in order, each path beginning with
`root` as it was given. -/
def discover (d : Disk) (s : Settings) (root : Path) (extra : List Value) : Except Fault Found :=
  match d.locate true root with
  | .error .nameTooLong => .error (.pathTooLong root.text)
  | .error _ => .error (.problem (.invalidPath root.text "not a directory"))
  | .ok place =>
    match d.top.at? place.names with
    | some (.directory es) => do
      let rules ← rulesOf s extra
      let files ← walkLinks d rules (Disk.maxLinks + 1) ⟨place.names, place.links, .current⟩
        (.directory es)
      limited s.maxFiles ((files.map root.append).mergeSort Path.le)
    | _ => .error (.problem (.invalidPath root.text "not a directory"))

end ThrowCatch.Discovery
