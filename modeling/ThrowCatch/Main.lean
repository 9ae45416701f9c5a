import ThrowCatch.CommandLine
import ThrowCatch.Source.Grammar

/-!
The program. The directories that a run can look at are read once, and the
run itself is the function `CommandLine.run` on what was read.
-/

namespace ThrowCatch.Main

def contentOf (path : String) : IO ByteArray := do
  let suffix := Text.lower (Path.ofString path).suffix
  if suffix == ".toml" || Language.extensions.any fun (e, _) => e == suffix then
    IO.FS.readBinFile path
  else return .empty

/-- Reads what is at a path. A link is recorded with the place it leads to;
what cannot be read is left out. -/
partial def recorded (path : String) : IO (Option Entry) := do
  try
    let place ← IO.FS.realPath path
    let mut entries := []
    match (← place.metadata).type with
    | .dir =>
      for child in ← place.readDir do
        let inner := path ++ "/" ++ child.fileName
        match (← child.path.symlinkMetadata).type with
        | .symlink =>
          try
            let target ← IO.FS.realPath inner
            entries := entries ++ [(child.fileName, Entry.link target.toString)]
          catch _ => pure ()
        | _ =>
          if let some e ← recorded inner then entries := entries ++ [(child.fileName, e)]
      return some (.directory entries)
    | .file => return some (.file (← contentOf path))
    | _ => return none
  catch _ => return none

/-- Puts what is at a path on a disk, under its real names. -/
def record (d : Disk) (path : String) : IO Disk := do
  try
    let place ← IO.FS.realPath path
    let names := (Path.ofString place.toString).names
    match ← recorded place.toString with
    | some e => return { d with top := d.top.set (some e) names }
    | none => return d
  catch _ => return d

def disk (args : List String) : IO Disk := do
  let working := (← IO.currentDir).toString
  let home := (← IO.getEnv "HOME").getD "/"
  let d : Disk := ⟨.directory [], (Path.ofString working).names, (Path.ofString home).names⟩
  let outside := args.filter fun a => Text.startsWith "/" a || Text.startsWith ".." a
  ((home ++ "/.errorflow.toml") :: outside ++ [working]).foldlM record d

def environment : IO (List (String × String)) :=
  Settings.keys.filterMapM fun key => do
    let name := Settings.variableName key
    return (← IO.getEnv name).map fun value => (name, value)

end ThrowCatch.Main

def main (args : List String) : IO UInt32 := do
  let d ← ThrowCatch.Main.disk args
  let env ← ThrowCatch.Main.environment
  let o := ThrowCatch.CommandLine.run ThrowCatch.Source.grammar d env args
  IO.print o.output
  if let some fault := o.fault then IO.eprintln fault.message
  return o.exitCode.toUInt32
