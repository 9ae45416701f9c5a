import ThrowCatch.Tree.Node

/-!
A place in a source text: the characters still to come, with the byte offset
and the row of the first of them. Between two tokens there may be blanks and
comments, which are passed together.
-/

namespace ThrowCatch.Source

structure Cursor where
  rest : List Char
  pos : Nat
  row : Nat
  deriving Repr

namespace Cursor

def start (text : String) : Cursor := ⟨text.toList, 0, 0⟩

def step (c : Cursor) : Cursor :=
  match c.rest with
  | [] => c
  | x :: xs => ⟨xs, c.pos + x.utf8Size, if x == '\n' then c.row + 1 else c.row⟩

def advance : Nat → Cursor → Cursor
  | 0, c => c
  | n + 1, c => advance n c.step

end Cursor

/-- Characters between tokens that mean nothing. -/
def isBlank (c : Char) : Bool :=
  let n := c.toNat
  (9 ≤ n && n ≤ 13) || n == 32 || n == 0xa0 || n == 0x1680 || (0x2000 ≤ n && n ≤ 0x200b) ||
    n == 0x2028 || n == 0x2029 || n == 0x202f || n == 0x205f || n == 0x2060 || n == 0x3000 ||
    n == 0xfeff

/-- Characters that end a line where a statement may end with it. -/
def endsLine (c : Char) : Bool :=
  c == '\n' || c.toNat == 0x2028 || c.toNat == 0x2029

/-- Characters that end a comment to the end of the line. -/
def endsComment (c : Char) : Bool := endsLine c || c == '\r'

/-- Where the passing of blanks is: between comments, or in one that began at
a cursor. -/
inductive Gap
  | plain
  | line (start : Cursor)
  | block (start : Cursor)

/-- What was passed before a token: where it begins, the comments, and whether
a line ended on the way. -/
structure Skipped where
  cursor : Cursor
  comments : List Node
  broken : Bool

def commentNode (start stop : Cursor) : Node :=
  ⟨"comment", true, none, start.pos, stop.pos, start.row, []⟩

/-- Passes blanks and comments. `pos` and `row` belong to the first of the
characters. A comment that is never closed is not passed. -/
def skipFrom (gap : Gap) (comments : List Node) (broken : Bool) (pos row : Nat) :
    List Char → Skipped
  | [] =>
    match gap with
    | .plain => ⟨⟨[], pos, row⟩, comments, broken⟩
    | .line start => ⟨⟨[], pos, row⟩, comments ++ [commentNode start ⟨[], pos, row⟩], broken⟩
    | .block start => ⟨start, comments, broken⟩
  | '/' :: '/' :: cs =>
    match gap with
    | .plain => skipFrom (.line ⟨'/' :: '/' :: cs, pos, row⟩) comments broken (pos + 2) row cs
    | gap => skipFrom gap comments broken (pos + 2) row cs
  | '/' :: '*' :: cs =>
    match gap with
    | .plain => skipFrom (.block ⟨'/' :: '*' :: cs, pos, row⟩) comments broken (pos + 2) row cs
    | .line start => skipFrom (.line start) comments broken (pos + 2) row cs
    | .block start => skipFrom (.block start) comments broken (pos + 1) row ('*' :: cs)
  | '*' :: '/' :: cs =>
    match gap with
    | .plain => ⟨⟨'*' :: '/' :: cs, pos, row⟩, comments, broken⟩
    | .line start => skipFrom (.line start) comments broken (pos + 2) row cs
    | .block start =>
      skipFrom .plain (comments ++ [commentNode start ⟨cs, pos + 2, row⟩]) broken (pos + 2) row cs
  | c :: cs =>
    let row' := if c == '\n' then row + 1 else row
    let broken' := broken || endsLine c
    match gap with
    | .plain =>
      if isBlank c then skipFrom .plain comments broken' (pos + c.utf8Size) row' cs
      else ⟨⟨c :: cs, pos, row⟩, comments, broken⟩
    | .line start =>
      if endsComment c then
        skipFrom .plain (comments ++ [commentNode start ⟨c :: cs, pos, row⟩]) broken'
          (pos + c.utf8Size) row' cs
      else skipFrom (.line start) comments broken (pos + c.utf8Size) row cs
    | .block start => skipFrom (.block start) comments broken' (pos + c.utf8Size) row' cs
  termination_by cs => cs.length

namespace Cursor

def skip (c : Cursor) : Skipped := skipFrom .plain [] false c.pos c.row c.rest

def next (c : Cursor) : Cursor := c.skip.cursor

def breaks (c : Cursor) : Bool := c.skip.broken

end Cursor

end ThrowCatch.Source
