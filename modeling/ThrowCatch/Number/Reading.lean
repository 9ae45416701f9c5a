import ThrowCatch.Number.Double
import ThrowCatch.Text.Blank
import ThrowCatch.Text.Digit

/-!
Reading numbers from text: whole numbers and decimals with a sign, digits of
any script, single underscores between digits, and blanks around.
-/

namespace ThrowCatch

/-- The number nearest to `± coefficient * 10 ^ exponent`. Beyond the range of
finite numbers the power of ten is not computed. -/
def Double.ofDecimal (negative : Bool) (coefficient : Nat) (exponent : Int) : Double :=
  let size : Int := (Nat.toDigits 10 coefficient).length
  if coefficient = 0 then .zero negative
  else if 400 < size + exponent then .infinite negative
  else if size + exponent < -400 then .zero negative
  else if exponent < 0 then .ofQuotient negative coefficient (Nat.pow 10 exponent.natAbs)
  else .ofQuotient negative (coefficient * Nat.pow 10 exponent.natAbs) 1

namespace Reading

def ofDigits (digits : List Nat) : Nat :=
  digits.foldl (fun n d => n * 10 + d) 0

/-- A run of digits that may hold single underscores between them, and what
follows it. `must` tells whether a digit has to come next. -/
def digitsFrom (must : Bool) : List Char → Option (List Nat × List Char)
  | [] => if must then none else some ([], [])
  | c :: cs =>
    match Text.digitValue? c with
    | some d => (digitsFrom false cs).map fun (ds, rest) => (d :: ds, rest)
    | none =>
      if must then none
      else if c == '_' then digitsFrom true cs
      else some ([], c :: cs)

def digits1 (cs : List Char) : Option (List Nat × List Char) := digitsFrom true cs

def sign : List Char → Bool × List Char
  | '+' :: cs => (false, cs)
  | '-' :: cs => (true, cs)
  | cs => (false, cs)

/-- Blanks that may stand around a number; the four ASCII separators may
not. -/
def isMargin (c : Char) : Bool := Text.isBlank c && !(28 ≤ c.toNat && c.toNat ≤ 31)

def trimmed (s : String) : List Char :=
  ((s.toList.dropWhile isMargin).reverse.dropWhile isMargin).reverse

def int? (s : String) : Option Int :=
  let (negative, cs) := sign (trimmed s)
  match digits1 cs with
  | some (ds, []) => some (if negative then -(ofDigits ds : Int) else ofDigits ds)
  | _ => none

/-- An exponent part, zero when there is none. -/
def exponent? : List Char → Option Int
  | [] => some 0
  | c :: cs =>
    if c == 'e' || c == 'E' then
      let (negative, cs) := sign cs
      match digits1 cs with
      | some (ds, []) => some (if negative then -(ofDigits ds : Int) else ofDigits ds)
      | _ => none
    else none

/-- Digits with a point somewhere, and perhaps an exponent. -/
def decimal? (negative : Bool) (cs : List Char) : Option Double :=
  let (whole, rest) := (digits1 cs).getD ([], cs)
  match rest with
  | '.' :: rest =>
    let (part, rest) := (digits1 rest).getD ([], rest)
    if whole.isEmpty && part.isEmpty then none
    else (exponent? rest).map fun e =>
      .ofDecimal negative (ofDigits (whole ++ part)) (e - part.length)
  | rest =>
    if whole.isEmpty then none
    else (exponent? rest).map fun e => .ofDecimal negative (ofDigits whole) e

def float? (s : String) : Option Double :=
  let (negative, cs) := sign (trimmed s)
  let word := String.ofList (cs.map Char.toLower)
  if word == "inf" || word == "infinity" then some (.infinite negative)
  else if word == "nan" then some .nan
  else decimal? negative cs

end Reading

end ThrowCatch
