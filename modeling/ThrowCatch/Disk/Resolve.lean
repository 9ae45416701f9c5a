import ThrowCatch.Disk.Basic
import ThrowCatch.Text.Quoted

/-!
Resolving paths. The resolved path is absolute and free of links; names that
do not exist are kept as they are. Two paths with the same resolved path are
taken for the same file.
-/

namespace ThrowCatch

inductive ResolveError
  | nullByte
  | loop (path : String)
  deriving DecidableEq, Repr

namespace Disk

/-- A link on the way, by its real names, and whether the way to it began at
the root or at the working directory. -/
structure Passage where
  rooted : Bool
  names : List String
  deriving DecidableEq, Repr

/-- Goes through names from `here`, replacing every link by what it leads to.
`active` are the links being replaced: meeting one of them again in the same
way is a loop, and the names from there on are kept. The second component
tells whether no loop was met. Replacements nest at most as deep as there are
passages, so `fuel` is twice the number of links. -/
def expand (d : Disk) (fuel : Nat) (active : List Passage) (here : Passage) :
    List String → Passage × Bool
  | [] => (here, true)
  | n :: rest =>
    if n == "." then d.expand fuel active here rest
    else if n == ".." then d.expand fuel active { here with names := here.names.dropLast } rest
    else
      let next : Passage := { here with names := here.names ++ [n] }
      let kept : Passage := { next with names := next.names ++ rest }
      match d.linkStat ⟨.root, next.names⟩ with
      | .ok (.link target) =>
        if active.contains next then (kept, false)
        else
          match fuel with
          | 0 => (kept, false)
          | fuel + 1 =>
            let path := Path.ofString target
            let origin : Passage := if path.isAbsolute then ⟨true, []⟩ else here
            match d.expand fuel (next :: active) origin path.names with
            | (found, true) => d.expand (fuel + 1) active found rest
            | (found, false) => ({ found with names := found.names ++ rest }, false)
      | _ => d.expand fuel active next rest
  termination_by names => (fuel, names.length)

def expanded (d : Disk) (p : Path) : List String :=
  (d.expand (2 * d.top.linkCount) [] ⟨p.isAbsolute, d.start p⟩ p.names).1.names

/-- The resolved form of a path. A path that runs into a loop of links has
none, and neither has one with a null character in it. -/
def resolve (d : Disk) (p : Path) : Except ResolveError Path :=
  if p.names.any fun n => n.toList.contains (Char.ofNat 0) then .error .nullByte
  else
    let found := d.absolute ⟨.root, d.expanded p⟩
    match d.stat found with
    | .error .loop => .error (.loop found.text)
    | _ => .ok found

end Disk

namespace ResolveError

def text : ResolveError → String
  | .nullByte => "embedded null byte"
  | .loop path => "Symlink loop from " ++ Text.quoted path

end ResolveError

end ThrowCatch
