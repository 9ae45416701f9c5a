import ThrowCatch.Coverage
import ThrowCatch.Index
import ThrowCatch.Sites.Collected
import ThrowCatch.Sites.Declared

/-!
Analysing files. Each file is analysed on its own through a shared index, and
a file that cannot be analysed only gives a report that says so.
-/

namespace ThrowCatch

structure Engine where
  grammar : Grammar
  settings : Settings
  matcher : Matcher
  implicitType : String

namespace Engine

def matcherOf (s : Settings) : Except Fault Matcher :=
  (Settings.membersOf s.errorSupertypes).bind fun names =>
    Matcher.ofMembers (if Settings.isOneOf ["exact"] s.supertypeMatch then .exact else .substring)
      names

/-- The engine of settings. The type for clauses without one is a name here, so
a value that is given for it and is no text stands in by its text. -/
def ofSettings (g : Grammar) (s : Settings) : Except Fault Engine :=
  (matcherOf s).map fun m => ⟨g, s, m, s.implicitCatchType.text⟩

/-- The path that stands for a file: the resolved one, or the absolute one
when links run in a loop. -/
def identity (d : Disk) (p : Path) : Except Fault Path :=
  match d.resolve p with
  | .ok k => .ok k
  | .error .nullByte => .error .nullByte
  | .error _ => .ok (d.absolute p)

/-- How a path is shown: from the root when it lies below it, and otherwise as
it was given. -/
def displayPath (d : Disk) (root : Option Path) (p : Path) : String :=
  match root with
  | none => p.text
  | some root =>
    match identity d p, identity d root with
    | .ok p', .ok root' =>
      match root'.below? p' with
      | some inside => inside.text
      | none => p.text
    | _, _ => p.text

def reportOn (e : Engine) (shown : String) (f : ParsedFile) : Except Fault FileReport := do
  let defined ←
    Sites.declared e.matcher.accepts f.language f.parse.source shown f.parse.root
  let sites := Sites.collect f.parse.source e.implicitType shown f.parse.root
  pure
    { path := shown
      defined := defined
      raised := sites.raised
      intercepted := sites.intercepted
      unclassified := sites.unclassified
      failure := none }

def skipReason? : Fault → Option String
  | .problem p =>
    if p.kind = .sourceUnavailable then
      (p.details.find? fun (k, _) => k == "reason").map (·.2)
    else none
  | _ => none

def analyzeFile (e : Engine) (d : Disk) (ix : Index) (root : Option Path) (p : Path) :
    Except Fault FileReport × Index :=
  let shown := displayPath d root p
  match Index.get e.grammar d e.settings ix p with
  | (.ok f, ix) => (e.reportOn shown f, ix)
  | (.error fault, ix) =>
    match skipReason? fault with
    | some reason => (.ok (.unavailable shown reason), ix)
    | none => (.error fault, ix)

def uniquePaths (d : Disk) (seen : List Path) : List Path → Except Fault (List Path)
  | [] => .ok []
  | p :: ps =>
    match identity d p with
    | .error e => .error e
    | .ok k =>
      if seen.contains k then uniquePaths d seen ps
      else (uniquePaths d (k :: seen) ps).map (p :: ·)

def analyzeEach (e : Engine) (d : Disk) (root : Option Path) (ix : Index) :
    List Path → Except Fault (List FileReport) × Index
  | [] => (.ok [], ix)
  | p :: ps =>
    match e.analyzeFile d ix root p with
    | (.error fault, ix) => (.error fault, ix)
    | (.ok report, ix) =>
      let (rest, ix) := e.analyzeEach d root ix ps
      (rest.map (report :: ·), ix)

/-- Analyses files in the order in which they are taken up, each answer being
kept with the position of its file. -/
def runTasks (e : Engine) (d : Disk) (root : Option Path) (ix : Index) :
    List (Path × Nat) → List (Nat × Except Fault FileReport) × Index
  | [] => ([], ix)
  | (p, i) :: rest =>
    let (answer, ix) := e.analyzeFile d ix root p
    let (answers, ix) := e.runTasks d root ix rest
    ((i, answer) :: answers, ix)

/-- The answers for `n` files, by position. The first fault is the fault of
the run. -/
def gather (n : Nat) (answers : List (Nat × Except Fault FileReport)) :
    Except Fault (List FileReport) :=
  ((List.range n).filterMap fun i => answers.lookup i).mapM id

/-- Analyses files by a pool of workers, who take them up as `schedule` tells
and go on after a fault. -/
def analyzePool (e : Engine) (d : Disk) (root : Option Path) (ix : Index)
    (schedule : List (Path × Nat) → List (Path × Nat)) (files : List Path) :
    Except Fault (List FileReport) × Index :=
  let (answers, ix) := e.runTasks d root ix (schedule files.zipIdx)
  (gather files.length answers, ix)

def onFiles (d : Disk) (ix : Index) (paths : List Path)
    (reportsOn : List Path → Except Fault (List FileReport) × Index) :
    Except Fault Analysis × Index :=
  match uniquePaths d [] paths with
  | .error fault => (.error fault, ix)
  | .ok files =>
    let (reports, ix) := reportsOn files
    (reports.map Analysis.mk, ix)

def analyze (e : Engine) (d : Disk) (root : Option Path) (ix : Index) (paths : List Path) :
    Except Fault Analysis × Index :=
  onFiles d ix paths (e.analyzeEach d root ix)

def analyzeScheduled (e : Engine) (d : Disk) (root : Option Path) (ix : Index)
    (schedule : List (Path × Nat) → List (Path × Nat)) (paths : List Path) :
    Except Fault Analysis × Index :=
  onFiles d ix paths (e.analyzePool d root ix schedule)

/-- Whether a run may use a pool, what the machine has for it, and the order in
which its workers take up the files. -/
structure Crew where
  parallel : Bool
  processors : Nat
  schedule : List (Path × Nat) → List (Path × Nat)

/-- With fewer files a pool costs more than it saves. -/
def poolThreshold : Nat := 10

/-- The number of workers: the one of the settings, or one for each processor,
eight at most. -/
def workers (e : Engine) (crew : Crew) : Value :=
  if e.settings.workers.truthy then e.settings.workers else .int (min crew.processors 8)

def pooled (e : Engine) (crew : Crew) (count : Nat) : Bool :=
  let alone := match (e.workers crew).number? with
    | some n => n.compare? (.int 1) == some .eq
    | none => false
  crew.parallel && !decide (count < poolThreshold) && !alone

/-- Analyses every file once, by a pool where that pays. -/
def run (e : Engine) (d : Disk) (root : Option Path) (ix : Index) (crew : Crew)
    (paths : List Path) : Except Fault Analysis × Index :=
  onFiles d ix paths fun files =>
    if e.pooled crew files.length then e.analyzePool d root ix crew.schedule files
    else e.analyzeEach d root ix files

def skipWarnings (a : Analysis) : List String :=
  a.skipped.map fun r => "Skipped " ++ r.path ++ ": " ++ r.failure.getD ""

end Engine

end ThrowCatch
