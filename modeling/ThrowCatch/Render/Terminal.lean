import ThrowCatch.Coverage
import ThrowCatch.Render.Layout

/-!
Reports as plain text for a terminal.
-/

namespace ThrowCatch.Render

/-- Lines, each with its end. -/
def unlines (ls : List String) : String :=
  Text.join "" (ls.map (· ++ "\n"))

/-- What a printed line looks like on the terminal. -/
def printed (s : String) : List String := lines s

/-- What is listed of a file: the line, the kind of find, and its name. -/
structure Finding where
  line : Int
  kind : String
  name : String

def findings (r : FileReport) : List Finding :=
  let site := fun (s : Site) => Finding.mk s.location.line s.kind.text s.name
  (r.defined.map fun d =>
    ⟨d.location.line, "defined", d.name ++ " extends " ++ d.supertype⟩) ++
    r.raised.map site ++ r.intercepted.map site

/-- A panel with the finds of a file, by their lines. -/
def filePanel (r : FileReport) : List String :=
  let rows := (findings r).mergeSort fun a b => a.line ≤ b.line
  panel r.path (plainTable [.right, .left, .left]
    (row ["Line", "Kind", "Name"] :: rows.map fun f => row [toString f.line, f.kind, f.name]))

def terminalFiles (a : Analysis) : String :=
  let panels := (a.analyzed.filter fun r => !r.isEmpty).flatMap filePanel
  let skipped :=
    if a.skipped.isEmpty then []
    else
      "Skipped files" ::
        (a.skipped.flatMap fun r =>
          printed ("  ! " ++ r.path ++ ": " ++ r.failure.getD "")) ++ [""]
  unlines (panels ++ skipped ++
    [toString a.analyzed.length ++ " file(s) analyzed, " ++ toString a.skipped.length ++
      " skipped"])

/-- A heading and a list of paths, followed by an empty line; nothing without
paths. -/
def pathList (heading mark : String) (paths : List String) : List String :=
  if paths.isEmpty then []
  else heading :: (paths.flatMap fun p => printed ("  " ++ mark ++ " " ++ p)) ++ [""]

def terminalFlow (f : Flow) : String :=
  let place := match f.definedIn with
    | some p => if p == "" then "(not found)" else p
    | none => "(not found)"
  unlines (
    printed ("Error Flow: " ++ f.name) ++ [""] ++
    printed ("Defined in: " ++ place) ++
    (f.duplicateDefinitions.flatMap fun p => printed ("  also declared in " ++ p)) ++ [""] ++
    pathList "Raised in" "•" f.raisedIn ++
    pathList "Intercepted in" "✓" f.interceptedIn ++
    (if f.unguardedIn.isEmpty then ["All raises are intercepted.", ""]
      else pathList "Not intercepted in (risky)" "⚠" f.unguardedIn))

/-- The nearest integer of a ratio, a half going to the even neighbour. -/
def rounded : Number → Except Fault Int
  | .int n => .ok n
  | .float .nan => .error .undefinedInteger
  | .float (.infinite _) => .error .infiniteInteger
  | .float x => .ok (x.round?.getD 0)

def detailRow (d : CoverageDetail) : Except Fault Row :=
  (rounded d.ratio).map fun n =>
    row [d.name, toString n ++ "%", toString d.riskyFiles.length]

def detailTable (c : Coverage) : Except Fault (List String) :=
  if c.details.isEmpty then .ok []
  else
    (c.details.mapM detailRow).map fun rows =>
      framedTable "Error Details" [.left, .right, .right]
        (row ["Error", "Coverage", "Risky Files"]) rows

def summary (c : Coverage) : List String :=
  panel "Error Coverage Report"
    ["Total errors: " ++ toString c.total, "Covered: " ++ toString c.covered,
      "Uncovered: " ++ toString c.uncovered, "Coverage: " ++ toString c.percentage ++ "%"]

def advice (c : Coverage) : List String :=
  if c.risky.isEmpty then ["  Every raised error type is intercepted where it is raised."]
  else
    c.risky.flatMap fun d =>
      printed ("  ⚠ " ++ d.name ++ " is not intercepted in " ++
        toString d.riskyFiles.length ++ " file(s)")

def terminalCoverage (c : Coverage) : Except Fault String :=
  (detailTable c).map fun table =>
    unlines (summary c ++ table ++ ["", "Recommendations"] ++ advice c ++ [""])

/-- Colour of a coverage value. -/
inductive Style
  | green | yellow | red
  deriving DecidableEq, Repr

def Style.text : Style → String
  | .green => "green"
  | .yellow => "yellow"
  | .red => "red"

def coverageStyle (n : Number) : Style :=
  if Number.le (.int 80) n then .green else if Number.le (.int 50) n then .yellow else .red

end ThrowCatch.Render
