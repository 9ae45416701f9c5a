import ThrowCatch.Discovery
import ThrowCatch.Engine

/-!
A session with one engine: the file system may change between the steps, and
the index, the files last found and the analysis last made are remembered.
-/

namespace ThrowCatch

structure Session where
  engine : Engine
  crew : Engine.Crew
  disk : Disk
  index : Index
  found : List Path
  analysis : Analysis

namespace Session

def start (e : Engine) (crew : Engine.Crew) (d : Disk) : Session :=
  ⟨e, crew, d, .empty, [], .empty⟩

/-- The real names of a path, names that are missing being kept. -/
def realNames (d : Disk) (p : Path) : List String :=
  (d.absolute ⟨.root, d.expanded p⟩).names

/-- The real names of a path whose last name is not followed when it is a
link. -/
def ownNames (d : Disk) (p : Path) : List String :=
  realNames d ⟨p.anchor, p.names.dropLast⟩ ++ [p.name]

def writeFile (d : Disk) (p : Path) (bytes : ByteArray) : Disk :=
  { d with top := d.top.set (some (.file bytes)) (realNames d p) }

/-- Makes a directory and those above it. One that is there stays as it is. -/
def makeDirectory (d : Disk) (p : Path) : Disk :=
  if d.isDirectory p then d
  else { d with top := d.top.set (some (.directory [])) (realNames d p) }

/-- Removes a file, a link, or a directory with all that is in it. -/
def delete (d : Disk) (p : Path) : Disk :=
  { d with top := d.top.set none (ownNames d p) }

def makeLink (d : Disk) (p : Path) (target : String) : Disk :=
  { d with top := d.top.set (some (.link target)) (ownNames d p) }

def onDisk (s : Session) (f : Disk → Disk) : Session := { s with disk := f s.disk }

def discover (s : Session) (root : Path) (extra : List Value) :
    Except Fault Discovery.Found × Session :=
  match Discovery.discover s.disk s.engine.settings root extra with
  | .ok found => (.ok found, { s with found := found.files })
  | .error e => (.error e, s)

/-- Analyses files, those last found when none are named, and remembers the
result. -/
def analyze (s : Session) (paths : Option (List Path)) (root : Option Path) :
    Except Fault Analysis × Session :=
  let (result, ix) := s.engine.run s.disk root s.index s.crew (paths.getD s.found)
  match result with
  | .ok a => (.ok a, { s with index := ix, analysis := a })
  | .error e => (.error e, { s with index := ix })

def analyzeFile (s : Session) (p : Path) (root : Option Path) :
    Except Fault FileReport × Session :=
  let (result, ix) := s.engine.analyzeFile s.disk s.index root p
  (result, { s with index := ix })

def parsed (s : Session) (p : Path) : Except Fault ParsedFile × Session :=
  let (result, ix) := Index.get s.engine.grammar s.disk s.engine.settings s.index p
  (result, { s with index := ix })

def clear (s : Session) : Session := { s with index := s.index.clear }

end Session

end ThrowCatch
