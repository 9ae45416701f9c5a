import ThrowCatch.Number.Double
import ThrowCatch.Text.Search

/-!
The shortest decimal text of a double-precision number: the fewest digits that
read back as the same number and, of those, the nearest to it.
-/

namespace ThrowCatch.Double

/-- Digits `d₁ d₂ … dₙ` and a point position `p`, for `0.d₁d₂…dₙ * 10 ^ p`. -/
structure Decimal where
  digits : List Char
  point : Int
  deriving DecidableEq, Repr

/-- The numbers that round to a finite positive number: a quotient `value`
and the two ends, all three over `unit`. The ends belong to the range when
`closed`. -/
structure Span where
  low : Nat
  value : Nat
  high : Nat
  unit : Nat
  closed : Bool

/-- The range of `m * 2 ^ e`. Below a power of two the neighbours are half as
far apart as above it. -/
def span (m : Nat) (e : Int) : Span :=
  let (one, unit) := scaled 1 (e - 2)
  let below := if m = Nat.pow 2 52 ∧ -1074 < e then 1 else 2
  ⟨(4 * m - below) * one, 4 * m * one, (4 * m + 2) * one, unit, m % 2 = 0⟩

def Span.holds (s : Span) (num den : Nat) : Bool :=
  let low := compare (s.low * den) (num * s.unit)
  let high := compare (num * s.unit) (s.high * den)
  (low == .lt || (s.closed && low == .eq)) && (high == .lt || (s.closed && high == .eq))

/-- The `k` with `10 ^ (k - 1) ≤ num / den < 10 ^ k`. -/
def decimalExponent (num den : Nat) : Int :=
  if den ≤ num then ((Nat.toDigits 10 (num / den)).length : Int)
  else
    let j := ((List.range 400).find? fun j => den ≤ num * Nat.pow 10 j).getD 400
    1 - (j : Int)

/-- A multiple of `10 ^ j` inside the range, the nearest to its value. -/
def Span.multiple? (s : Span) (j : Int) : Option Nat :=
  let (up, down) := if j < 0 then (1, Nat.pow 10 j.natAbs) else (Nat.pow 10 j.natAbs, 1)
  let c := s.value * down / (s.unit * up)
  match s.holds (c * up) down, s.holds ((c + 1) * up) down with
  | true, true =>
    let gap := 2 * (s.value * down)
    let middle := (2 * c + 1) * up * s.unit
    if gap < middle then some c
    else if middle < gap then some (c + 1)
    else if c % 2 = 0 then some c else some (c + 1)
  | true, false => some c
  | false, true => some (c + 1)
  | false, false => none

/-- The shortest decimal of `m * 2 ^ e`, for positive `m`. Seventeen digits
are always enough. -/
def shortest (m : Nat) (e : Int) : Decimal :=
  let s := span m e
  let k := decimalExponent s.value s.unit
  let found := (List.range 17).findSome? fun i =>
    let j := k - (i + 1 : Nat)
    (s.multiple? j).map fun c => (c, j)
  let (c, j) := found.getD (0, 0)
  let digits := Nat.toDigits 10 c
  let kept := (digits.reverse.dropWhile (· == '0')).reverse
  ⟨kept, (digits.length : Int) + j⟩

/-- How a decimal is written: positionally while the point lies from three
places before the digits to sixteen after, and otherwise with an exponent of
at least two digits. -/
def Decimal.text (d : Decimal) : String :=
  let n := d.digits.length
  if -4 < d.point ∧ d.point ≤ 16 then
    if d.point ≤ 0 then
      "0." ++ Text.repeatChar '0' d.point.natAbs ++ String.ofList d.digits
    else
      let p := d.point.toNat
      if n ≤ p then String.ofList d.digits ++ Text.repeatChar '0' (p - n) ++ ".0"
      else String.ofList (d.digits.take p) ++ "." ++ String.ofList (d.digits.drop p)
  else
    let head := String.ofList (d.digits.take 1)
    let tail := d.digits.drop 1
    let mantissa := if tail.isEmpty then head else head ++ "." ++ String.ofList tail
    let x := d.point - 1
    let size := String.ofList (Nat.toDigits 10 x.natAbs)
    mantissa ++ "e" ++ (if x < 0 then "-" else "+") ++
      (if x.natAbs < 10 then "0" else "") ++ size

def text : Double → String
  | .nan => "nan"
  | .infinite s => if s then "-inf" else "inf"
  | .finite s m e =>
    (if s then "-" else "") ++ (if m = 0 then "0.0" else (shortest m e).text)

end ThrowCatch.Double
