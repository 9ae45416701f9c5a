import ThrowCatch.Number.Reading
import ThrowCatch.Text.Utf8
import ThrowCatch.Value

/-!
JSON documents. A written document is ASCII only: every other character is
escaped by its UTF-16 units. Entries of an object keep their order.
-/

namespace ThrowCatch.Json

def unitEscape (n : Nat) : List Char := '\\' :: 'u' :: Text.hex 4 n

def escapeChar (c : Char) : List Char :=
  let n := c.toNat
  if c == '"' || c == '\\' then ['\\', c]
  else if c == '\n' then ['\\', 'n']
  else if c == '\r' then ['\\', 'r']
  else if c == '\t' then ['\\', 't']
  else if n == 8 then ['\\', 'b']
  else if n == 12 then ['\\', 'f']
  else if 32 ≤ n && n ≤ 126 then [c]
  else if n < 0x10000 then unitEscape n
  else unitEscape (0xd800 + (n - 0x10000) / 0x400) ++ unitEscape (0xdc00 + (n - 0x10000) % 0x400)

def quote (s : String) : String :=
  String.ofList ('"' :: (s.toList.flatMap escapeChar ++ ['"']))

def number (x : Double) : String :=
  match x with
  | .nan => "NaN"
  | .infinite s => if s then "-Infinity" else "Infinity"
  | x => x.text

/-- A line break and the indentation of a level, or nothing in the compact
style. -/
def lineBreak (compact : Bool) (level : Nat) : String :=
  if compact then "" else "\n" ++ Text.repeatChar ' ' (2 * level)

def between (compact : Bool) (level : Nat) : String :=
  if compact then ", " else "," ++ lineBreak compact level

mutual

def write (compact : Bool) (level : Nat) : Value → String
  | .null => "null"
  | .bool b => if b then "true" else "false"
  | .int n => toString n
  | .float x => number x
  | .str s => quote s
  | .moment m => quote m.text
  | .list [] => "[]"
  | .list items =>
    "[" ++ lineBreak compact (level + 1) ++
      Text.join (between compact (level + 1)) (writeItems compact (level + 1) items) ++
      lineBreak compact level ++ "]"
  | .table [] => "\x7b\x7d"
  | .table entries =>
    "\x7b" ++ lineBreak compact (level + 1) ++
      Text.join (between compact (level + 1)) (writeEntries compact (level + 1) entries) ++
      lineBreak compact level ++ "\x7d"

def writeItems (compact : Bool) (level : Nat) : List Value → List String
  | [] => []
  | v :: vs => write compact level v :: writeItems compact level vs

def writeEntries (compact : Bool) (level : Nat) : List (String × Value) → List String
  | [] => []
  | (k, v) :: kvs => (quote k ++ ": " ++ write compact level v) :: writeEntries compact level kvs

end

/-- A document over several lines, two blanks deeper at each level. -/
def pretty (v : Value) : String := write false 0 v

/-- A document on one line. -/
def compact (v : Value) : String := write true 0 v

/-! Reading. Every character costs at most two units of fuel, so twice the
length of the text is enough. -/

def isSpace (c : Char) : Bool := c == ' ' || c == '\n' || c == '\r' || c == '\t'

def skip (cs : List Char) : List Char := cs.dropWhile isSpace

def hexValue? (c : Char) : Option Nat :=
  let n := c.toNat
  if 48 ≤ n && n ≤ 57 then some (n - 48)
  else if 97 ≤ n && n ≤ 102 then some (n - 87)
  else if 65 ≤ n && n ≤ 70 then some (n - 55)
  else none

def hex4? : List Char → Option (Nat × List Char)
  | a :: b :: c :: d :: rest =>
    match hexValue? a, hexValue? b, hexValue? c, hexValue? d with
    | some a, some b, some c, some d => some (((a * 16 + b) * 16 + c) * 16 + d, rest)
    | _, _, _, _ => none
  | _ => none

/-- The characters of a string up to its closing quote, in reverse order. A
surrogate without its partner reads as the replacement character. -/
def stringFrom (acc : List Char) : Nat → List Char → Option (List Char × List Char)
  | 0, _ => none
  | fuel + 1, cs =>
    match cs with
    | [] => none
    | '"' :: rest => some (acc, rest)
    | '\\' :: 'u' :: rest =>
      match hex4? rest with
      | none => none
      | some (hi, rest) =>
        if 0xd800 ≤ hi && hi < 0xdc00 then
          match rest with
          | '\\' :: 'u' :: low =>
            match hex4? low with
            | some (lo, after) =>
              if 0xdc00 ≤ lo && lo < 0xe000 then
                let n := 0x10000 + (hi - 0xd800) * 0x400 + (lo - 0xdc00)
                stringFrom (Char.ofNat n :: acc) fuel after
              else stringFrom (Text.replacement :: acc) fuel rest
            | none => none
          | _ => stringFrom (Text.replacement :: acc) fuel rest
        else if 0xdc00 ≤ hi && hi < 0xe000 then stringFrom (Text.replacement :: acc) fuel rest
        else stringFrom (Char.ofNat hi :: acc) fuel rest
    | '\\' :: c :: rest =>
      match c with
      | 'n' => stringFrom ('\n' :: acc) fuel rest
      | 't' => stringFrom ('\t' :: acc) fuel rest
      | 'r' => stringFrom ('\r' :: acc) fuel rest
      | 'b' => stringFrom (Char.ofNat 8 :: acc) fuel rest
      | 'f' => stringFrom (Char.ofNat 12 :: acc) fuel rest
      | '"' => stringFrom ('"' :: acc) fuel rest
      | '\\' => stringFrom ('\\' :: acc) fuel rest
      | '/' => stringFrom ('/' :: acc) fuel rest
      | _ => none
    | c :: rest => if c.toNat < 32 then none else stringFrom (c :: acc) fuel rest

def isNumberChar (c : Char) : Bool :=
  c.isDigit || c == '-' || c == '+' || c == '.' || c == 'e' || c == 'E'

/-- A number without a point and an exponent is whole. -/
def number? (cs : List Char) : Option Value :=
  let s := String.ofList cs
  if cs.any fun c => c == '.' || c == 'e' || c == 'E' then (Reading.float? s).map .float
  else (Reading.int? s).map .int

mutual

def valueFrom : Nat → List Char → Option (Value × List Char)
  | 0, _ => none
  | fuel + 1, cs =>
    match cs with
    | 'n' :: 'u' :: 'l' :: 'l' :: rest => some (.null, rest)
    | 't' :: 'r' :: 'u' :: 'e' :: rest => some (.bool true, rest)
    | 'f' :: 'a' :: 'l' :: 's' :: 'e' :: rest => some (.bool false, rest)
    | '"' :: rest =>
      (stringFrom [] fuel rest).map fun (s, rest) =>
        (.str (String.ofList s.reverse), rest)
    | '[' :: rest =>
      match skip rest with
      | ']' :: rest => some (.list [], rest)
      | rest => itemsFrom [] fuel rest
    | '\x7b' :: rest =>
      match skip rest with
      | '\x7d' :: rest => some (.table [], rest)
      | rest => entriesFrom [] fuel rest
    | cs =>
      let word := cs.takeWhile isNumberChar
      if word.isEmpty then none
      else (number? word).map fun v => (v, cs.dropWhile isNumberChar)

def itemsFrom (acc : List Value) : Nat → List Char → Option (Value × List Char)
  | 0, _ => none
  | fuel + 1, cs =>
    match valueFrom fuel cs with
    | none => none
    | some (v, rest) =>
      match skip rest with
      | ',' :: rest => itemsFrom (v :: acc) fuel (skip rest)
      | ']' :: rest => some (.list (v :: acc).reverse, rest)
      | _ => none

def entriesFrom (acc : List (String × Value)) : Nat → List Char → Option (Value × List Char)
  | 0, _ => none
  | fuel + 1, cs =>
    match cs with
    | '"' :: rest =>
      match stringFrom [] fuel rest with
      | none => none
      | some (key, rest) =>
        match skip rest with
        | ':' :: rest =>
          match valueFrom fuel (skip rest) with
          | none => none
          | some (v, rest) =>
            let acc := (String.ofList key.reverse, v) :: acc
            match skip rest with
            | ',' :: rest => entriesFrom acc fuel (skip rest)
            | '\x7d' :: rest => some (.table acc.reverse, rest)
            | _ => none
        | _ => none
    | _ => none

end

/-- The value of a document, or `none` when the text is not one. -/
def read? (s : String) : Option Value :=
  let cs := s.toList
  match valueFrom (2 * cs.length + 2) (skip cs) with
  | some (v, rest) => if (skip rest).isEmpty then some v else none
  | none => none

end ThrowCatch.Json
