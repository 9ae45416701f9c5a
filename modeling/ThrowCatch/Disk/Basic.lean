import ThrowCatch.Disk.Path

/-!
A file system as a value: directories, files and symbolic links. Looking a
path up follows links as an operating system does, with a bound on how many
links one path may pass.
-/

namespace ThrowCatch

inductive Entry
  | file (bytes : ByteArray)
  | directory (entries : List (String × Entry))
  | link (target : String)
  deriving Inhabited

/-- A file system together with the working and the home directory, both given
by the names on the way from the root. -/
structure Disk where
  top : Entry
  working : List String
  home : List String

inductive DiskError
  | missing
  | notDirectory
  | isDirectory
  | nameTooLong
  | loop
  deriving DecidableEq, Repr

namespace DiskError

def text : DiskError → String
  | .missing => "No such file or directory"
  | .notDirectory => "Not a directory"
  | .isDirectory => "Is a directory"
  | .nameTooLong => "File name too long"
  | .loop => "Too many levels of symbolic links"

end DiskError

namespace Entry

def entry? (name : String) : Entry → Option Entry
  | .directory entries => (entries.find? fun (n, _) => n == name).map (·.2)
  | _ => none

/-- The entry at the end of a list of names, no link being followed. -/
def at? (e : Entry) : List String → Option Entry
  | [] => some e
  | n :: ns => (e.entry? n).bind fun c => c.at? ns

def isDirectory : Entry → Bool
  | .directory _ => true
  | _ => false

def isLink : Entry → Bool
  | .link _ => true
  | _ => false

/-- Sets, or removes, the entry of a name in a list of entries. -/
def setIn (entries : List (String × Entry)) (name : String) (new : Option Entry) :
    List (String × Entry) :=
  match entries with
  | [] => match new with
    | some e => [(name, e)]
    | none => []
  | (n, e) :: rest =>
    if n == name then
      match new with
      | some e => (n, e) :: rest
      | none => rest
    else (n, e) :: setIn rest name new

/-- Sets, or removes, the entry at the end of a list of names. Directories on
the way are made when they are missing. -/
def set (e : Entry) (new : Option Entry) : List String → Entry
  | [] => new.getD e
  | [n] =>
    match e with
    | .directory entries => .directory (setIn entries n new)
    | e => e
  | n :: ns =>
    match e with
    | .directory entries =>
      let inner := ((entries.find? fun (m, _) => m == n).map (·.2)).getD (.directory [])
      .directory (setIn entries n (some (inner.set new ns)))
    | e => e

mutual

def linkCount : Entry → Nat
  | .link _ => 1
  | .file _ => 0
  | .directory entries => linkCountIn entries

def linkCountIn : List (String × Entry) → Nat
  | [] => 0
  | (_, e) :: rest => linkCount e + linkCountIn rest

end

end Entry

/-- A place reached by a look-up: its real names, and how many more links the
same path could have passed. -/
structure Place where
  names : List String
  links : Nat
  deriving Repr

namespace Disk

/-- One path may pass this many links. -/
def maxLinks : Nat := 40

/-- A name may have this many bytes. -/
def maxNameBytes : Nat := 255

/-- A path may have this many bytes. -/
def maxPathBytes : Nat := 4095

/-- Follows names from a directory. `links` is how many links may still be
passed; the last link is followed only when `follow` holds. -/
def walkNames (d : Disk) (follow : Bool) (links : Nat) (here : List String) :
    List String → Except DiskError Place
  | [] => .ok ⟨here, links⟩
  | n :: rest =>
    match d.top.at? here with
    | some (.directory _) =>
      if n == "." then d.walkNames follow links here rest
      else if n == ".." then d.walkNames follow links here.dropLast rest
      else if maxNameBytes < n.utf8ByteSize then .error .nameTooLong
      else
        match d.top.at? (here ++ [n]) with
        | none => .error .missing
        | some (.link target) =>
          if rest.isEmpty && !follow then .ok ⟨here ++ [n], links⟩
          else
            match links with
            | 0 => .error .loop
            | links + 1 =>
              let path := Path.ofString target
              let start := if path.isAbsolute then [] else here
              d.walkNames follow links start (path.names ++ rest)
        | some _ => d.walkNames follow links (here ++ [n]) rest
    | some _ => .error .notDirectory
    | none => .error .missing
  termination_by names => (links, names.length)

def start (d : Disk) (p : Path) : List String :=
  if p.isAbsolute then [] else d.working

/-- Looks a path up, following links (`follow` tells whether also the last
name's). -/
def locate (d : Disk) (follow : Bool) (p : Path) : Except DiskError Place :=
  if maxPathBytes < p.text.utf8ByteSize then .error .nameTooLong
  else d.walkNames follow maxLinks (d.start p) p.names

def stat (d : Disk) (p : Path) : Except DiskError Entry :=
  (d.locate true p).bind fun place =>
    match d.top.at? place.names with
    | some e => .ok e
    | none => .error .missing

/-- The entry a path names, a link staying a link. -/
def linkStat (d : Disk) (p : Path) : Except DiskError Entry :=
  (d.locate false p).bind fun place =>
    match d.top.at? place.names with
    | some e => .ok e
    | none => .error .missing

def isDirectory (d : Disk) (p : Path) : Bool :=
  match d.stat p with
  | .ok e => e.isDirectory
  | .error _ => false

def isLink (d : Disk) (p : Path) : Bool :=
  match d.linkStat p with
  | .ok e => e.isLink
  | .error _ => false

def isPresent (d : Disk) (p : Path) : Bool :=
  match d.stat p with
  | .ok _ => true
  | .error _ => false

def read (d : Disk) (p : Path) : Except DiskError ByteArray :=
  (d.stat p).bind fun e =>
    match e with
    | .file bytes => .ok bytes
    | _ => .error .isDirectory

/-- The absolute form of a path, `..` taken back by text alone. -/
def absolute (d : Disk) (p : Path) : Path :=
  let names := (d.start p ++ p.names).foldl
    (fun done n => if n == ".." then done.dropLast else if n == "." then done else done ++ [n]) []
  ⟨if p.anchor = .doubled then .doubled else .root, names⟩

end Disk

end ThrowCatch
