import ThrowCatch.Source.Class
import ThrowCatch.Source.Markup

/-!
Expressions. Operators are read as a flat row of operands first and then put
in order by how tightly they bind.
-/

namespace ThrowCatch.Source

/-! Literals and other values that stand alone. -/

def regex : Parser Node := do
  match (← token).rest with
  | '/' :: cs =>
    match regexTail false cs with
    | some n => leaf "regex" (n + 1)
    | none => failure
  | _ => failure

def array (r : Rules) : Parser Node := do
  let start ← token
  punct "["
  let xs ← sparseItems "]" (spread r <|> r.assignment)
  node "array" start xs

/-- A member of an object. A name alone may have a value behind an equals
sign, since the object may turn out to be a pattern. -/
def objectMember (r : Rules) : Parser Node := spread r <|> (do
  let start ← token
  modifiersFrom ["async", "get", "set"] seesQualified 2
  let _ ← accept "*"
  let name ← memberName r
  if ← seesAny ["(", "<"] then
    let parts ← signature r
    let body ← r.read .block
    node "method_definition" start ([name] ++ parts ++ [body])
  else if ← accept ":" then
    let value ← r.assignment
    node "pair" start [name, value]
  else
    expect (name.kind == "property_identifier")
    let value ← maybeInitializer r
    node "shorthand_property_identifier" start value)

def object (r : Rules) : Parser Node := do
  let start ← token
  punct "\x7b"
  let xs ← sparseItems "\x7d" (objectMember r)
  node "object" start xs

/-- Words that are values by themselves, and the kinds of their nodes. -/
def plainWords : List String := ["this", "super", "null", "true", "false", "import"]

/-- Where types are written, `new` names something when nothing is
constructed. -/
def newName (r : Rules) : Parser Node := do
  expect r.typed
  let x ← leaf "identifier" 3
  expect (!(← sees "("))
  pure x

def wordValue (r : Rules) : Parser Node := do
  let w ← peekWord
  if w == "function" then functionExpression r
  else if w == "class" then classExpression r
  else if w == "new" then r.read .creation <|> newName r
  else if w == "export" then leaf "identifier" 6
  else if plainWords.contains w then leaf w w.length
  else functionExpression r <|> identifier

/-- A private name stands alone only where it is asked whether an object has
it. -/
def askedName : Parser Node := do
  let x ← privateName
  expect ((← peekWord) == "in")
  pure x

/-- An expression that no operator is a part of. -/
def primary (r : Rules) : Parser Node := do
  match ← peekChar with
  | none => failure
  | some c =>
    if c == '(' then parenthesized r
    else if c == '[' then array r
    else if c == '\x7b' then object r
    else if c == '"' || c == apostrophe then stringLiteral
    else if c == accent then template "template_string" r.expression
    else if c == '/' then regex
    else if c.isDigit || c == '.' then number
    else if c == '<' then (do expect r.markup; r.read .element)
    else if c == '#' then askedName
    else if c == '@' then classExpression r
    else wordValue r

/-! Chains of members and calls. -/

def memberStep (start : Cursor) (x : Node) : Parser Node := do
  punct "."
  let name ← propertyName <|> privateName
  node "member_expression" start [x.withField "object", name.withField "property"]

def indexStep (r : Rules) (start : Cursor) (x : Node) : Parser Node := do
  punct "["
  let i ← r.expression
  punct "]"
  node "subscript_expression" start [x.withField "object", i.withField "index"]

def callStep (r : Rules) (start : Cursor) (x : Node) : Parser Node := do
  let xs ← arguments r
  node "call_expression" start [x.withField "function", xs.withField "arguments"]

def templateStep (r : Rules) (start : Cursor) (x : Node) : Parser Node := do
  let t ← template "template_string" r.expression
  node "call_expression" start [x.withField "function", t.withField "arguments"]

def presentStep (start : Cursor) (x : Node) : Parser Node := do
  expect (!(← breaks))
  punct "!"
  node "non_null_expression" start [x]

/-- Whether type arguments can end before the next token, when no call
follows. -/
def endsTypeArguments : Parser Bool := do
  if ← breaks then pure true
  else if (← peekChar).isNone then pure true
  else if ["in", "instanceof", "as", "satisfies", "of"].contains (← peekWord) then pure true
  else
    seesAny [")", "]", "\x7d", ",", ";", ":", ".", "?.", "?", "=", "==", "===", "!=", "!==", "&&",
      "||", "??", "^", "&", "|", "*", "/", "%"]

def typedStep (r : Rules) (start : Cursor) (x : Node) : Parser Node := do
  let types ← typeArguments r
  (do
    let xs ← arguments r <|> template "template_string" r.expression
    node "call_expression" start [x.withField "function", types, xs.withField "arguments"]) <|> (do
    expect (← endsTypeArguments)
    node "instantiation_expression" start [x, types])

/-- A step to a member that is not taken when there is nothing to take it
from. -/
def optionalMember (r : Rules) (start : Cursor) (x : Node) : Parser Node := do
  punct "?."
  indexStep r start x <|> (do
    let name ← propertyName <|> privateName
    node "member_expression" start [x.withField "object", name.withField "property"])

def optionalCall (r : Rules) (start : Cursor) (x : Node) : Parser Node := do
  punct "?."
  callStep r start x <|> templateStep r start x <|> (do
    expect r.typed
    typedStep r start x)

/-- Which steps a chain may take: calls, and the mark that something is
there. -/
structure Reach where
  calls : Bool
  present : Bool

/-- One step of a chain. -/
def chainStep (r : Rules) (reach : Reach) (start : Cursor) (x : Node) : Parser Node :=
  memberStep start x <|> indexStep r start x <|> templateStep r start x <|>
    optionalMember r start x <|> (do
      expect (r.typed && reach.present)
      presentStep start x) <|> (do
      expect reach.calls
      callStep r start x <|> optionalCall r start x <|> (do expect r.typed; typedStep r start x))

def chainFrom (r : Rules) (reach : Reach) (start : Cursor) : Nat → Node → Parser Node
  | 0, x => pure x
  | fuel + 1, x => (do
    let y ← chainStep r reach start x
    chainFrom r reach start fuel y) <|> pure x

def chain (r : Rules) (present : Bool) : Parser Node := do
  let start ← token
  let x ← primary r
  chainFrom r ⟨true, present⟩ start (← room) x

/-- What `new` constructs: a chain without calls. Where types are written, a
chain that begins with another construction has calls. -/
def constructed (r : Rules) : Parser Node := do
  if r.typed && (← peekWord) == "new" then r.read .chain
  else
    let start ← token
    let x ← primary r
    chainFrom r ⟨false, true⟩ start (← room) x

/-- A construction. The arguments may be missing. -/
def creation (r : Rules) : Parser Node := do
  let start ← token
  keyword "new"
  if ← accept "." then
    let _ ← anyWord
    node "meta_property" start []
  else
    let x ← constructed r
    let angle ← sees "<"
    let types ← if r.typed && angle then (do pure [← typeArguments r]) else pure []
    let xs ← maybe (arguments r)
    node "new_expression" start ([x.withField "constructor"] ++ types ++ xs)

/-! Operands. A mark behind an operand that something is there belongs to it
only when it is the first of a row, so an operand is either read with such
marks or up to the first of them. -/

def signOperators : List String := ["!", "~", "+", "-"]

def wordOperators : List String := ["typeof", "void", "delete"]

def unary (r : Rules) (whole : Bool) : Parser Node := do
  let start ← token
  let w ← peekWord
  if wordOperators.contains w then take w.length
  else
    expect (← seesAny signOperators)
    take 1
  let x ← r.read (.operand whole)
  node "unary_expression" start [x]

def updateBefore (r : Rules) (whole : Bool) : Parser Node := do
  let start ← token
  expect (← seesAny ["++", "--"])
  take 2
  let x ← r.read (.operand whole)
  node "update_expression" start [x]

def awaited (r : Rules) : Parser Node := do
  let start ← token
  keyword "await"
  let x ← r.read (.operand true)
  node "await_expression" start [x]

def typeAssertion (r : Rules) (whole : Bool) : Parser Node := do
  let start ← token
  expect (r.language == .typescript)
  let types ← typeArguments r
  let x ← r.read (.operand whole)
  node "type_assertion" start [types, x]

/-- A value, with a step of one behind it when they stand on a line. -/
def updated (start : Cursor) (x : Node) : Parser Node := do
  if !(← breaks) && (← seesAny ["++", "--"]) then
    take 2
    node "update_expression" start [x]
  else pure x

def operand (r : Rules) (whole : Bool) : Parser Node :=
  unary r whole <|> updateBefore r whole <|> awaited r <|> typeAssertion r whole <|> (do
    let start ← token
    let x ← chain r whole
    updated start x)

/-! Operators between operands. -/

/-- How tightly an operator binds. -/
def bindingPower (operator : String) : Option Nat :=
  if operator == "??" then some 1
  else if operator == "||" then some 2
  else if operator == "&&" then some 3
  else if operator == "|" then some 4
  else if operator == "^" then some 5
  else if operator == "&" then some 6
  else if ["==", "!=", "===", "!=="].contains operator then some 7
  else if ["<", "<=", ">", ">=", "instanceof", "in"].contains operator then some 8
  else if ["<<", ">>", ">>>"].contains operator then some 9
  else if ["+", "-"].contains operator then some 10
  else if ["*", "/", "%"].contains operator then some 11
  else if operator == "**" then some 12
  else none

structure Operator where
  sign : Node
  power : Nat

/-- Powers are computed from right to left. -/
def Operator.fromRight (o : Operator) : Bool := o.power = 12

def Operator.join (o : Operator) (left right : Node) : Node :=
  ⟨"binary_expression", true, none, left.start, right.stop, left.row,
    [left.withField "left", o.sign.withField "operator", right.withField "right"]⟩

/-- Operators whose right operand is still open, the last one first. -/
abbrev Pending := List (Node × Operator)

/-- A row of operands as far as it is read: the operators that are still open,
and the operand behind the last of them. -/
structure Row where
  pending : Pending
  last : Node

/-- Closes operators from the last one on, as long as a condition holds. -/
def settle (closes : Operator → Bool) : Pending → Node → Row
  | [], x => ⟨[], x⟩
  | (left, o) :: rest, x =>
    if closes o then settle closes rest (o.join left x) else ⟨(left, o) :: rest, x⟩

namespace Row

/-- The expression of a row that has ended. -/
def close (row : Row) : Node := (settle (fun _ => true) row.pending row.last).last

/-- Closes what binds its operand before an operator that follows. -/
def before (row : Row) (next : Operator) : Row :=
  settle (fun o => next.power < o.power || (next.power = o.power && !next.fromRight))
    row.pending row.last

/-- Closes what stands before a mark or a type behind the row. -/
def marked (row : Row) : Row := settle (fun o => !o.fromRight) row.pending row.last

end Row

def operatorNode (text : String) : Parser Node := do
  let start ← token
  take text.length
  return { (← node text start []) with named := false }

def operatorText : Parser String := do
  let w ← peekWord
  if w != "" then pure w
  else
    match symbol? (← token).rest with
    | some s => pure (String.ofList s)
    | none => failure

def operatorStep (r : Rules) (m : Mode) (row : Row) : Parser Row := do
  let text ← operatorText
  match bindingPower text with
  | none => failure
  | some power =>
    expect (m.allowIn || text != "in")
    let o : Operator := ⟨← operatorNode text, power⟩
    let x ← operand r false
    let row := row.before o
    pure ⟨(row.last, o) :: row.pending, x⟩

/-- A type behind `as`, or a word that keeps values as they are. -/
def castTarget (r : Rules) : Parser Node :=
  (do
    expect ((← peekWord) == "const")
    leaf "const" 5) <|> r.read .type

/-- A type for all of the row. -/
def castStep (r : Rules) (row : Row) : Parser Row := do
  expect (r.typed && ["as", "satisfies"].contains (← peekWord) && !(← breaks))
  let w ← anyWord
  let t ← castTarget r
  let row := row.marked
  let x : Node :=
    ⟨w ++ "_expression", true, none, row.last.start, t.stop, row.last.row, [row.last, t]⟩
  pure { row with last := x }

/-- A mark that all of the row is there, and the chain that may follow. -/
def markStep (r : Rules) (row : Row) : Parser Row := do
  expect r.typed
  let row := row.marked
  let start : Cursor := ⟨[], row.last.start, row.last.row⟩
  let x ← presentStep start row.last
  let x ← chainFrom r ⟨true, true⟩ start (← room) x
  pure { row with last := ← updated start x }

def rowFrom (r : Rules) (m : Mode) : Nat → Row → Parser Node
  | 0, row => pure row.close
  | fuel + 1, row => (do
    let row ← castStep r row <|> markStep r row <|> operatorStep r m row
    rowFrom r m fuel row) <|> pure row.close

def binaryExpression (r : Rules) (m : Mode) : Parser Node := do
  let x ← operand r true
  rowFrom r m (← room) ⟨[], x⟩

/-! Arrow functions, conditions, assignments. -/

/-- The parameters of an arrow function, up to the arrow. -/
def arrowHead (r : Rules) (m : Mode) : Parser (List Node) :=
  (do
    let x ← identifier
    punct "=>"
    pure [x]) <|> (do
    let types ← maybeTypeParameters r
    let params ← parameters r
    let result ← if r.typed && m.arrowTypes then maybe (resultMark r) else pure []
    punct "=>"
    return types ++ [params] ++ result)

def asyncArrowHead (r : Rules) (m : Mode) : Parser (List Node) := do
  keyword "async"
  expect (!(← breaks))
  arrowHead r m

def arrow (r : Rules) (m : Mode) : Parser Node := do
  let start ← token
  let head ← asyncArrowHead r m <|> arrowHead r m
  let body ← if ← sees "\x7b" then r.read .block else r.read (.assignment m)
  node "arrow_function" start (head ++ [body])

def yielded (r : Rules) (m : Mode) : Parser Node := do
  let start ← token
  keyword "yield"
  let _ ← accept "*"
  let value ← if ← breaks then pure [] else maybe (r.read (.assignment m))
  node "yield_expression" start value

/-- What is given when a condition holds, with the colon behind it. The
parameters of an arrow function have no type there when the colon would be
taken for one. -/
def consequence (r : Rules) : Parser Node :=
  (do
    let x ← r.assignment
    punct ":"
    pure x) <|> (do
    expect r.typed
    let x ← r.read (.assignment ⟨true, false⟩)
    punct ":"
    pure x)

def assignmentOperators : List String :=
  ["=", "+=", "-=", "*=", "/=", "%=", "**=", "<<=", ">>=", ">>>=", "&=", "|=", "^=", "&&=", "||=",
    "??="]

/-- The kinds of nodes that can be assigned to. -/
def targetKinds : List String :=
  ["identifier", "undefined", "member_expression", "subscript_expression", "array", "object",
    "parenthesized_expression", "non_null_expression"]

def plainAssignment (r : Rules) (m : Mode) : Parser Node := do
  let start ← token
  let x ← binaryExpression r m
  if ← accept "?" then
    let yes ← consequence r
    let no ← r.read (.assignment m)
    node "ternary_expression" start [x, yes, no]
  else if ← seesAny assignmentOperators then
    expect (targetKinds.contains x.kind)
    take ((symbol? (← token).rest).getD []).length
    let y ← r.read (.assignment m)
    node "assignment_expression" start [x, y]
  else pure x

def assignment (r : Rules) (m : Mode) : Parser Node :=
  arrow r m <|> yielded r m <|> plainAssignment r m

/-- Expressions with commas between them. -/
def expression (r : Rules) (m : Mode) : Parser Node := do
  let start ← token
  let xs ← separated (accept ",") (assignment r m)
  match xs with
  | [x] => pure x
  | xs => node "sequence_expression" start xs

end ThrowCatch.Source
