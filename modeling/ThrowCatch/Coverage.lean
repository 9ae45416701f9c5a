import ThrowCatch.Flow

/-!
How many of the declared error types are intercepted anywhere. The ratio of an
error type can exceed a hundred, since files that intercept it need not raise
it.
-/

namespace ThrowCatch

/-- The coverage of one error type. -/
structure CoverageDetail where
  name : String
  ratio : Number
  riskyFiles : List String
  deriving DecidableEq, Repr

structure Coverage where
  total : Int
  covered : Int
  uncovered : Int
  percentage : Int
  details : List CoverageDetail
  deriving DecidableEq, Repr

namespace Coverage

/-- The share in percent, rounded to the nearest integer with halves going up.
The quotient is rounded to a double-precision number before the half is added
and after. -/
def percentageOf (part total : Int) : Except Fault Int :=
  if total = 0 then .ok 0
  else
    let n := 100 * part
    match Double.ofQuotient ((n < 0) != (total < 0)) n.natAbs total.natAbs with
    | .infinite _ => .error .quotientTooLarge
    | q => .ok (q.addHalf.floor?.getD 0)

def detailOf (f : Flow) : CoverageDetail :=
  ⟨f.name, .float f.coverageRatio, f.unguardedIn⟩

/-- The coverage of a list of flows. -/
def ofFlows (flows : List Flow) : Coverage :=
  let total := flows.length
  let covered := (flows.filter (·.isIntercepted)).length
  { total := total
    covered := covered
    uncovered := (total : Int) - covered
    percentage := (percentageOf covered total).toOption.getD 0
    details := flows.map detailOf }

/-- The error types raised in a file that does not intercept them. -/
def risky (c : Coverage) : List CoverageDetail :=
  c.details.filter fun d => !d.riskyFiles.isEmpty

end Coverage

def Number.toValue : Number → Value
  | .int n => .int n
  | .float x => .float x

def CoverageDetail.toValue (d : CoverageDetail) : Value :=
  .table [("error", .str d.name), ("coverage", d.ratio.toValue),
    ("risky_files", .list (d.riskyFiles.map .str))]

def Coverage.toEntries (c : Coverage) : List (String × Value) :=
  [("total_errors", .int c.total), ("covered_errors", .int c.covered),
    ("uncovered_errors", .int c.uncovered), ("percentage", .int c.percentage),
    ("details", .list (c.details.map CoverageDetail.toValue))]

def Coverage.toValue (c : Coverage) : Value := .table c.toEntries

def Analysis.coverage (a : Analysis) : Coverage := .ofFlows a.flows

end ThrowCatch
