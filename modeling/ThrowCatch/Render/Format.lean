import ThrowCatch.Json
import ThrowCatch.Render.Terminal

/-!
The two output formats: plain text for a terminal, and JSON for other
programs.
-/

namespace ThrowCatch

inductive Format
  | terminal | json
  deriving DecidableEq, Repr

namespace Format

def ofName (name : String) : Except Fault Format :=
  if name == "rich" then .ok .terminal
  else if name == "json" then .ok .json
  else .error (.unknownFormat name)

def files (f : Format) (a : Analysis) : String :=
  match f with
  | .terminal => Render.terminalFiles a
  | .json => Json.pretty a.toValue

def flow (f : Format) (x : Flow) : String :=
  match f with
  | .terminal => Render.terminalFlow x
  | .json => Json.pretty x.toValue

def coverage (f : Format) (c : Coverage) : Except Fault String :=
  match f with
  | .terminal => Render.terminalCoverage c
  | .json => .ok (Json.pretty c.toValue)

/-- What is printed of a text: JSON is given a line end of its own. -/
def printed (f : Format) (text : String) : String :=
  match f with
  | .terminal => text
  | .json => text ++ "\n"

end Format

end ThrowCatch
