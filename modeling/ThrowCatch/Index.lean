import ThrowCatch.Disk.Resolve
import ThrowCatch.Language
import ThrowCatch.Settings.Basic
import ThrowCatch.Tree.Node

/-!
Parsed files, each kept under its resolved path from the first time it is
asked for. A file that cannot be parsed leaves no trace.
-/

namespace ThrowCatch

/-- A syntax tree with the bytes it describes, and whether the text had
syntax errors. -/
structure Parse where
  source : ByteArray
  root : Node
  hasErrors : Bool

/-- How texts of each language are parsed. -/
abbrev Grammar := Language → ByteArray → Parse

structure ParsedFile where
  path : Path
  language : Language
  size : Nat
  parse : Parse

structure Index where
  entries : List (Path × ParsedFile)
  parseCount : Nat

namespace Index

def empty : Index := ⟨[], 0⟩

def find? (ix : Index) (key : Path) : Option ParsedFile :=
  (ix.entries.find? fun (k, _) => k == key).map (·.2)

/-- Drops all parsed files; the count of parses goes on. -/
def clear (ix : Index) : Index := { ix with entries := [] }

def size (ix : Index) : Nat := ix.entries.length

/-- What the file system reports as the size of a directory. -/
def directorySize : Nat := 4096

def sizeOf : Entry → Nat
  | .file bytes => bytes.size
  | _ => directorySize

def parseFile (g : Grammar) (d : Disk) (s : Settings) (key : Path) : Except Fault ParsedFile :=
  let fail := fun reason => Except.error (Fault.problem (.sourceUnavailable key.text reason))
  match Language.ofPath? key with
  | none => fail ("unsupported file type '" ++ key.suffix ++ "'")
  | some language =>
    match d.stat key with
    | .error e => fail ("cannot stat file: " ++ e.text)
    | .ok entry =>
      match s.maxFileSizeBytes with
      | .error e => .error e
      | .ok limit =>
        if limit < sizeOf entry then
          fail ("file is " ++ toString (sizeOf entry) ++ " bytes, limit is " ++ toString limit)
        else
          match d.read key with
          | .error e => fail ("cannot read file: " ++ e.text)
          | .ok bytes =>
            let parse := g language bytes
            if parse.hasErrors && s.strictParse.truthy then fail "syntax errors in file"
            else .ok ⟨key, language, bytes.size, parse⟩

def key (d : Disk) (p : Path) : Except Fault Path :=
  match d.resolve p with
  | .ok k => .ok k
  | .error .nullByte => .error .nullByte
  | .error e => .error (.problem (.sourceUnavailable p.text ("cannot resolve path: " ++ e.text)))

def get (g : Grammar) (d : Disk) (s : Settings) (ix : Index) (p : Path) :
    Except Fault ParsedFile × Index :=
  match key d p with
  | .error e => (.error e, ix)
  | .ok k =>
    match ix.find? k with
    | some parsed => (.ok parsed, ix)
    | none =>
      match parseFile g d s k with
      | .ok parsed => (.ok parsed, ⟨ix.entries ++ [(k, parsed)], ix.parseCount + 1⟩)
      | .error e => (.error e, ix)

/-- Whether the file of a path is held. -/
def holds (d : Disk) (ix : Index) (p : Path) : Except Fault Bool :=
  match d.resolve p with
  | .ok k => .ok (ix.find? k).isSome
  | .error .nullByte => .error .nullByte
  | .error _ => .ok false

end Index

end ThrowCatch
