import ThrowCatch.Text.Search

/-!
File paths with `/` between the parts. Repeated slashes and `.` parts carry
no meaning and are dropped; `..` stays until a path is resolved.
-/

namespace ThrowCatch

/-- How a path begins: from the working directory, from the root, or with the
two slashes that are kept apart from one. -/
inductive Anchor
  | relative | root | doubled
  deriving DecidableEq, Repr

def Anchor.text : Anchor → String
  | .relative => ""
  | .root => "/"
  | .doubled => "//"

structure Path where
  anchor : Anchor
  names : List String
  deriving DecidableEq, Repr

namespace Path

/-- Reads a path. Exactly two leading slashes are kept. -/
def ofString (s : String) : Path :=
  let slashes := (s.toList.takeWhile (· == '/')).length
  let anchor := if slashes = 0 then .relative else if slashes = 2 then .doubled else .root
  ⟨anchor, (Text.pieces '/' s).filter fun p => p != "" && p != "."⟩

def current : Path := ⟨.relative, []⟩

def text (p : Path) : String :=
  match p.anchor, p.names with
  | .relative, [] => "."
  | a, names => a.text ++ Text.join "/" names

def isAbsolute (p : Path) : Bool := p.anchor != .relative

/-- The parts of a path, a leading slash being a part of its own. -/
def parts (p : Path) : List String :=
  if p.isAbsolute then p.anchor.text :: p.names else p.names

/-- The last name, empty when there is none. -/
def name (p : Path) : String := p.names.getLast?.getD ""

/-- The end of a name from its last dot on. A name that starts with its only
dot, or ends with one, has none. -/
def suffixOf (name : String) : String :=
  let tail := name.toList.reverse.takeWhile (· != '.')
  let n := name.toList.length
  if tail.length = n ∨ tail.length = 0 ∨ tail.length + 1 = n then ""
  else String.ofList ('.' :: tail.reverse)

def suffix (p : Path) : String := suffixOf p.name

def push (p : Path) (name : String) : Path := ⟨p.anchor, p.names ++ [name]⟩

/-- The second path seen from the first; an absolute one stands alone. -/
def append (p q : Path) : Path :=
  if q.isAbsolute then q else ⟨p.anchor, p.names ++ q.names⟩

/-- What is left of a path below another one, when it is below it. -/
def below? (base p : Path) : Option Path :=
  if base.anchor = p.anchor ∧ base.names.isPrefixOf p.names then
    some ⟨.relative, p.names.drop base.names.length⟩
  else none

/-- Order by parts, each part by its characters. -/
def le (p q : Path) : Bool :=
  compare p.parts q.parts != .gt

end Path

end ThrowCatch
