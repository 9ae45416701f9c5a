/-!
Double-precision numbers as exact data. A finite number is a signed multiple
of a power of two, and every operation is done on integers and rounded once,
to the nearest number and to the even one of two equally near.
-/

namespace ThrowCatch

/-- A double-precision number. `finite s m e` stands for `m * 2 ^ e`, negated
when `s` holds. Numbers built by `Double.ofQuotient` have either
`2 ^ 52 ≤ m < 2 ^ 53` or the least exponent, `-1074`. -/
inductive Double
  | nan
  | infinite (negative : Bool)
  | finite (negative : Bool) (mant : Nat) (exp : Int)
  deriving DecidableEq, Repr, Inhabited

namespace Double

/-- The integer nearest to `n / d`; a tie goes to the even one. -/
def roundDiv (n d : Nat) : Nat :=
  let q := n / d
  let r := n % d
  if 2 * r < d then q
  else if d < 2 * r then q + 1
  else if q % 2 = 0 then q else q + 1

/-- `n * 2 ^ e` as a quotient of two naturals. -/
def scaled (n : Nat) (e : Int) : Nat × Nat :=
  if e < 0 then (n, Nat.pow 2 e.natAbs) else (n * Nat.pow 2 e.natAbs, 1)

/-- The exponent `k` with `2 ^ k ≤ num / den < 2 ^ (k + 1)`, for positive
`num` and `den`. -/
def binaryExponent (num den : Nat) : Int :=
  let k : Int := (num.log2 : Int) - (den.log2 : Int)
  let (up, down) := scaled den k
  if up ≤ num * down then k else k - 1

def zero (negative : Bool) : Double := .finite negative 0 (-1074)

/-- The number nearest to `num / den`, or an infinity when that is beyond the
greatest finite number. -/
def ofQuotient (negative : Bool) (num den : Nat) : Double :=
  if num = 0 then zero negative
  else
    let e := max (binaryExponent num den - 52) (-1074)
    let (up, down) := scaled den e
    let m := roundDiv (num * down) up
    let (m, e) := if m = Nat.pow 2 53 then (Nat.pow 2 52, e + 1) else (m, e)
    if 971 < e then .infinite negative else .finite negative m e

def ofInt (n : Int) : Double := ofQuotient (n < 0) n.natAbs 1

def isNegative : Double → Bool
  | .nan => false
  | .infinite s => s
  | .finite s _ _ => s

def quotient? : Double → Option (Int × Nat)
  | .finite s m e =>
    let (n, d) := scaled m e
    some (if s then -(n : Int) else n, d)
  | _ => none

def addHalf (x : Double) : Double :=
  match x.quotient? with
  | some (n, d) =>
    let sum := 2 * n + d
    ofQuotient (sum < 0) sum.natAbs (2 * d)
  | none => x

def scaleUp (x : Double) (k : Nat) : Double :=
  match x with
  | .finite s m e =>
    let (n, d) := scaled m (e + k)
    ofQuotient s n d
  | x => x

def floor? (x : Double) : Option Int :=
  x.quotient?.map fun (n, d) => n.fdiv d

/-- The integer part, toward zero. -/
def truncate? (x : Double) : Option Int :=
  x.quotient?.map fun (n, d) => n.tdiv d

/-- The nearest integer, a half going to the even neighbour. -/
def round? : Double → Option Int
  | .finite s m e =>
    let (n, d) := scaled m e
    let r := roundDiv n d
    some (if s then -(r : Int) else r)
  | _ => none

end Double

inductive Number
  | int (n : Int)
  | float (x : Double)
  deriving DecidableEq, Repr, Inhabited

namespace Number

/-- How two numbers compare, exactly; nothing compares with `nan`. -/
def compare? (a b : Number) : Option Ordering :=
  let place : Number → Option (Int × Nat × Int)
    | .int n => some (0, 1, n)
    | .float .nan => none
    | .float (.infinite s) => some (if s then -1 else 1, 1, 0)
    | .float x => x.quotient?.map fun (n, d) => (0, d, n)
  match place a, place b with
  | some (i, d, n), some (j, e, m) =>
    some (if i = j then compare (n * e) (m * d) else compare i j)
  | _, _ => none

def lt (a b : Number) : Bool := a.compare? b == some .lt

def le (a b : Number) : Bool :=
  match a.compare? b with
  | some .gt => false
  | some _ => true
  | none => false

end Number

end ThrowCatch
