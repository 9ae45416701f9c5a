import ThrowCatch.Text.Search

/-!
Log levels. One level holds for the whole program; a record is written when
its level reaches it.
-/

namespace ThrowCatch.Logging

def debug : Int := 10
def warning : Int := 30
def error : Int := 40

/-- The name of the program's logger. -/
def loggerName : String := "errorflow"

/-- The level of a run; quiet wins over loud. -/
def level (verbose quiet : Bool) : Int :=
  if quiet then error else if verbose then debug else warning

def levelName (n : Int) : String :=
  if n = 10 then "DEBUG" else if n = 20 then "INFO" else if n = 30 then "WARNING"
  else if n = 40 then "ERROR" else if n = 50 then "CRITICAL" else "Level " ++ toString n

structure Record where
  logger : String
  level : Int
  message : String

/-- How a record stands in a log file, after its time. -/
def Record.line (r : Record) : String :=
  r.logger ++ " - " ++ levelName r.level ++ " - " ++ r.message

/-- The records that are written at a level. -/
def written (level : Int) (records : List Record) : List Record :=
  records.filter fun r => level ≤ r.level

end ThrowCatch.Logging
