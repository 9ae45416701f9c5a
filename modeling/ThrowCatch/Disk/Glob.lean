import ThrowCatch.Disk.Path

/-!
Glob patterns over paths. A pattern is cut into parts like a path, and each
part is matched against a part of the path by itself, case-sensitively.
-/

namespace ThrowCatch.Glob

inductive Token
  | star
  | any
  | char (c : Char)
  | set (negated : Bool) (members : List (Char × Char))
  deriving DecidableEq, Repr

/-- Cuts the inside of a set at the hyphens that make ranges. A hyphen makes a
range when a character precedes it and it does not end a range just made; a
trailing hyphen is a member. The result lists the stretches between them. -/
def stretches (piece : List Char) (room : Nat) : List Char → List (List Char)
  | [] => [piece]
  | c :: cs =>
    if c == '-' && room == 0 then
      match cs with
      | [] => [piece ++ [c]]
      | d :: ds => piece :: stretches [d] 1 ds
    else stretches (piece ++ [c]) (room - 1) cs

/-- Drops the ranges that run backwards, from the last to the first, joining
what stands around them. -/
def dropEmpty : List (List Char) → List (List Char)
  | [] => []
  | s :: rest =>
    match dropEmpty rest with
    | [] => [s]
    | t :: more =>
      match s.getLast?, t.head? with
      | some a, some b => if b < a then (s.dropLast ++ t.drop 1) :: more else s :: t :: more
      | _, _ => s :: t :: more

/-- The members of a set: the characters of the stretches, and the range from
the end of each stretch to the start of the next. -/
def members : List (List Char) → List (Char × Char)
  | [] => []
  | [s] => s.map fun c => (c, c)
  | s :: t :: rest =>
    let range := match s.getLast?, t.head? with
      | some a, some b => [(a, b)]
      | _, _ => []
    (s.dropLast.map fun c => (c, c)) ++ range ++ members (t :: rest)

def set (inside : List Char) : Token :=
  match inside with
  | '!' :: cs => .set true (members (dropEmpty (stretches [] 1 cs)))
  | cs => .set false (members (dropEmpty (stretches [] 1 cs)))

/-- What stands between an opening bracket and the one that closes it; a
closing bracket that comes first is a member. -/
def inside? (cs : List Char) : Option (List Char × List Char) :=
  let (bang, cs) := match cs with
    | '!' :: cs => (['!'], cs)
    | cs => ([], cs)
  let (first, cs) := match cs with
    | ']' :: cs => ([']'], cs)
    | cs => ([], cs)
  match cs.dropWhile (· != ']') with
  | [] => none
  | _ :: rest => some (bang ++ first ++ cs.takeWhile (· != ']'), rest)

/-- The tokens of a pattern part. A bracket that is never closed stands for
itself. The fuel is the length of the part. -/
def tokens : Nat → List Char → List Token
  | 0, _ => []
  | _, [] => []
  | fuel + 1, c :: cs =>
    if c == '*' then .star :: tokens fuel cs
    else if c == '?' then .any :: tokens fuel cs
    else if c == '[' then
      match inside? cs with
      | some (i, rest) => set i :: tokens fuel rest
      | none => .char c :: tokens fuel cs
    else .char c :: tokens fuel cs

def Token.accepts : Token → Char → Bool
  | .star, _ => false
  | .any, _ => true
  | .char d, c => c == d
  | .set negated members, c => (members.any fun (a, b) => a ≤ c && c ≤ b) != negated

def accepts : List Token → List Char → Bool
  | [], cs => cs.isEmpty
  | .star :: ts, [] => accepts ts []
  | .star :: ts, c :: cs => accepts ts (c :: cs) || accepts (.star :: ts) cs
  | _ :: _, [] => false
  | t :: ts, c :: cs => t.accepts c && accepts ts cs
  termination_by ts cs => ts.length + cs.length

def acceptsName (pattern name : String) : Bool :=
  accepts (tokens pattern.toList.length pattern.toList) name.toList

/-- Whether a pattern matches a path: all of it when the pattern begins with a
slash, and otherwise its last parts. A pattern without parts matches nothing
and is refused. -/
def accepts? (pattern : Path) (path : Path) : Option Bool :=
  let want := pattern.parts
  let given := path.parts
  if want.isEmpty then none
  else if pattern.isAbsolute then
    some (pattern.anchor = path.anchor && want.length = given.length &&
      (pattern.names.zip path.names).all fun (w, h) => acceptsName w h)
  else
    some (want.length ≤ given.length &&
      (want.reverse.zip given.reverse).all fun (w, h) => acceptsName w h)

end ThrowCatch.Glob
