import ThrowCatch.Json
import ThrowCatch.Number.Reading
import ThrowCatch.Value

/-!
The atoms of a TOML document: blanks and comments, strings, numbers and dates.
Each reader takes the characters that are left and gives its result with what
follows it.
-/

namespace ThrowCatch.Toml

abbrev Result (α : Type) := Option (α × List Char)

def isSpace (c : Char) : Bool := c == ' ' || c == '\t'

def skipSpace (cs : List Char) : List Char := cs.dropWhile isSpace

/-- Control characters, which no comment and no string may hold as they are. -/
def isControl (c : Char) : Bool := (c.toNat < 32 && c != '\t') || c.toNat == 127

/-- Drops a comment, when there is one, up to the end of its line. -/
def skipComment (cs : List Char) : Option (List Char) :=
  match cs with
  | '#' :: rest =>
    let body := rest.takeWhile (· != '\n')
    if body.any isControl then none else some (rest.dropWhile (· != '\n'))
  | cs => some cs

def skipLines : Nat → List Char → Option (List Char)
  | 0, cs => some cs
  | fuel + 1, cs =>
    match cs.dropWhile fun c => isSpace c || c == '\n' with
    | '#' :: rest => (skipComment ('#' :: rest)).bind (skipLines fuel)
    | cs => some cs

/-! Strings. -/

def apostrophe : Char := Char.ofNat 39

def hexDigits? (n : Nat) (cs : List Char) : Result Nat :=
  let ds := (cs.take n).filterMap Json.hexValue?
  if ds.length = n then some (ds.foldl (fun a d => a * 16 + d) 0, cs.drop n) else none

/-- The character of a code point, unless it is half of a surrogate pair or
none at all. -/
def scalar? (n : Nat) : Option Char :=
  if (0xd800 ≤ n && n < 0xe000) || 0x10ffff < n then none else some (Char.ofNat n)

/-- What an escape stands for, after its backslash. -/
def escape? : List Char → Result Char
  | 'b' :: cs => some (Char.ofNat 8, cs)
  | 't' :: cs => some ('\t', cs)
  | 'n' :: cs => some ('\n', cs)
  | 'f' :: cs => some (Char.ofNat 12, cs)
  | 'r' :: cs => some ('\r', cs)
  | '"' :: cs => some ('"', cs)
  | '\\' :: cs => some ('\\', cs)
  | 'u' :: cs => (hexDigits? 4 cs).bind fun (n, cs) => (scalar? n).map fun c => (c, cs)
  | 'U' :: cs => (hexDigits? 8 cs).bind fun (n, cs) => (scalar? n).map fun c => (c, cs)
  | _ => none

/-- A string on one line, after its opening quote. -/
def basicFrom (acc : List Char) : Nat → List Char → Result String
  | 0, _ => none
  | fuel + 1, cs =>
    match cs with
    | [] => none
    | '"' :: cs => some (String.ofList acc.reverse, cs)
    | '\\' :: cs => (escape? cs).bind fun (c, cs) => basicFrom (c :: acc) fuel cs
    | c :: cs => if isControl c then none else basicFrom (c :: acc) fuel cs

/-- Up to two quotes more may stand before the three that close a string over
several lines. -/
def extraQuotes (q : Char) (s : List Char) (cs : List Char) : List Char × List Char :=
  match cs with
  | a :: b :: rest =>
    if a == q && b == q then (q :: q :: s, rest)
    else if a == q then (q :: s, b :: rest) else (s, cs)
  | [a] => if a == q then (q :: s, []) else (s, cs)
  | [] => (s, [])

/-- A string over several lines, after its opening quotes. A backslash at the
end of a line takes the blanks and line ends after it away. -/
def multiFrom (acc : List Char) : Nat → List Char → Result String
  | 0, _ => none
  | fuel + 1, cs =>
    match cs with
    | [] => none
    | '"' :: '"' :: '"' :: cs =>
      let (acc, cs) := extraQuotes '"' acc cs
      some (String.ofList acc.reverse, cs)
    | '\\' :: c :: cs =>
      if isSpace c || c == '\n' then
        match skipSpace (c :: cs) with
        | '\n' :: cs => multiFrom acc fuel (cs.dropWhile fun c => isSpace c || c == '\n')
        | _ => none
      else (escape? (c :: cs)).bind fun (c, cs) => multiFrom (c :: acc) fuel cs
    | c :: cs =>
      if c == '\\' || (isControl c && c != '\n') then none else multiFrom (c :: acc) fuel cs

/-- A literal string over several lines, after its opening quotes. -/
def literalFrom (acc : List Char) : List Char → Result String
  | [] => none
  | c :: cs =>
    if c == apostrophe && cs.take 2 == [apostrophe, apostrophe] then
      let (acc, cs) := extraQuotes apostrophe acc (cs.drop 2)
      some (String.ofList acc.reverse, cs)
    else if isControl c && c != '\n' then none
    else literalFrom (c :: acc) cs

def dropLineEnd : List Char → List Char
  | '\n' :: cs => cs
  | cs => cs

/-- A literal string on one line, after its opening quote. -/
def literal? (cs : List Char) : Result String :=
  let body := cs.takeWhile (· != apostrophe)
  match cs.dropWhile (· != apostrophe) with
  | [] => none
  | _ :: rest => if body.any isControl then none else some (String.ofList body, rest)

def string? (cs : List Char) : Result String :=
  match cs with
  | '"' :: '"' :: '"' :: cs => multiFrom [] (cs.length + 1) (dropLineEnd cs)
  | '"' :: cs => basicFrom [] (cs.length + 1) cs
  | a :: cs =>
    if a != apostrophe then none
    else if cs.take 2 == [apostrophe, apostrophe] then literalFrom [] (dropLineEnd (cs.drop 2))
    else literal? cs
  | [] => none

/-! Numbers. -/

/-- Digits of a base with single underscores between them: one digit, then any
number of digits each of which may follow an underscore. -/
def digitsOf (isDigit : Char → Bool) : List Char → List Char × List Char
  | [] => ([], [])
  | c :: cs =>
    if isDigit c then
      let (ds, rest) := digitsOf isDigit cs
      (c :: ds, rest)
    else match c, cs with
      | '_', d :: cs' =>
        if isDigit d then
          let (ds, rest) := digitsOf isDigit cs'
          (d :: ds, rest)
        else ([], c :: cs)
      | _, _ => ([], c :: cs)

def digits? (isDigit : Char → Bool) : List Char → Result (List Char)
  | c :: cs => if isDigit c then some (digitsOf isDigit (c :: cs)) else none
  | [] => none

def valueOf (base : Nat) (ds : List Char) : Nat :=
  ds.foldl (fun n c => n * base + (Json.hexValue? c).getD 0) 0

def isHex (c : Char) : Bool := (Json.hexValue? c).isSome
def isOctal (c : Char) : Bool := '0' ≤ c && c ≤ '7'
def isBinary (c : Char) : Bool := c == '0' || c == '1'

def based? : List Char → Result Value
  | '0' :: 'x' :: cs => (digits? isHex cs).map fun (ds, cs) => (.int (valueOf 16 ds), cs)
  | '0' :: 'o' :: cs => (digits? isOctal cs).map fun (ds, cs) => (.int (valueOf 8 ds), cs)
  | '0' :: 'b' :: cs => (digits? isBinary cs).map fun (ds, cs) => (.int (valueOf 2 ds), cs)
  | _ => none

def fraction : List Char → List Char × List Char
  | '.' :: cs => (digits? Char.isDigit cs).getD ([], '.' :: cs)
  | cs => ([], cs)

def exponent : List Char → Option Int × List Char
  | [] => (none, [])
  | c :: cs =>
    if c == 'e' || c == 'E' then
      let (negative, ds) := Reading.sign cs
      match digits? Char.isDigit ds with
      | some (ds, rest) =>
        let n : Int := valueOf 10 ds
        (some (if negative then -n else n), rest)
      | none => (none, c :: cs)
    else (none, c :: cs)

/-- A decimal number. A whole part of several digits does not begin with a
zero: after a zero the number ends. -/
def decimal? (cs : List Char) : Result Value :=
  let (negative, cs) := Reading.sign cs
  let whole : Result (List Char) := match cs with
    | '0' :: cs => some (['0'], cs)
    | cs => digits? Char.isDigit cs
  whole.map fun (ds, cs) =>
    let (part, cs) := fraction cs
    let (e, cs) := exponent cs
    if part.isEmpty && e.isNone then
      let n : Int := valueOf 10 ds
      (.int (if negative then -n else n), cs)
    else
      (.float (.ofDecimal negative (valueOf 10 (ds ++ part)) (e.getD 0 - part.length)), cs)

/-- Infinity and the undefined number, by name. -/
def special? (cs : List Char) : Result Value :=
  let (negative, rest) := Reading.sign cs
  match rest with
  | 'i' :: 'n' :: 'f' :: cs => some (.float (.infinite negative), cs)
  | 'n' :: 'a' :: 'n' :: cs => some (.float .nan, cs)
  | _ => none

/-! Dates and times. -/

/-- A number of exactly `n` digits within bounds. -/
def fixed? (n lo hi : Nat) (cs : List Char) : Option (Nat × List Char) :=
  let ds := cs.take n
  let v := valueOf 10 ds
  if ds.length = n && ds.all Char.isDigit && lo ≤ v && v ≤ hi then some (v, cs.drop n) else none

def after? (c : Char) : List Char → Option (List Char)
  | d :: cs => if c == d then some cs else none
  | [] => none

def clock? (cs : List Char) : Option (Clock × List Char) := do
  let (hour, cs) ← fixed? 2 0 23 cs
  let cs ← after? ':' cs
  let (minute, cs) ← fixed? 2 0 59 cs
  let cs ← after? ':' cs
  let (second, cs) ← fixed? 2 0 59 cs
  match cs with
  | '.' :: rest =>
    let ds := rest.takeWhile Char.isDigit
    if ds.isEmpty then pure (⟨hour, minute, second, 0⟩, cs)
    else
      let micro := valueOf 10 ((ds ++ List.replicate 6 '0').take 6)
      pure (⟨hour, minute, second, micro⟩, rest.dropWhile Char.isDigit)
  | cs => pure (⟨hour, minute, second, 0⟩, cs)

def monthDays (year month : Nat) : Nat :=
  if month = 2 then
    if (year % 4 = 0 ∧ year % 100 ≠ 0) ∨ year % 400 = 0 then 29 else 28
  else if [4, 6, 9, 11].contains month then 30 else 31

def date? (cs : List Char) : Option (Date × List Char) := do
  let (year, cs) ← fixed? 4 0 9999 cs
  let cs ← after? '-' cs
  let (month, cs) ← fixed? 2 1 12 cs
  let cs ← after? '-' cs
  let (day, cs) ← fixed? 2 1 31 cs
  pure (⟨year, month, day⟩, cs)

def offset? : List Char → Option (Int × List Char)
  | [] => none
  | c :: cs =>
    if c == 'Z' || c == 'z' then some (0, cs)
    else if c == '+' || c == '-' then do
      let (hour, cs) ← fixed? 2 0 23 cs
      let cs ← after? ':' cs
      let (minute, cs) ← fixed? 2 0 59 cs
      let n : Int := hour * 60 + minute
      pure (if c == '-' then -n else n, cs)
    else none

/-- The time of day after a date, when there is one. -/
def timeOfDay? : List Char → Result Clock
  | c :: cs => if c == 'T' || c == 't' || c == ' ' then clock? cs else none
  | [] => none

def isDay (d : Date) : Bool := 1 ≤ d.year && d.day ≤ monthDays d.year d.month

/-- A date, a time, or both; `none` inside when the day does not exist. -/
def moment? (cs : List Char) : Option (Option (Moment × List Char)) :=
  match date? cs with
  | some (d, rest) =>
    if !isDay d then some none
    else
      match timeOfDay? rest with
      | some (t, rest) =>
        match offset? rest with
        | some (o, rest) => some (some (.stamp d t (some o), rest))
        | none => some (some (.stamp d t none, rest))
      | none => some (some (.date d, rest))
  | none => (clock? cs).map fun (t, rest) => some (.time t, rest)

end ThrowCatch.Toml
