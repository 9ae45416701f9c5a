import ThrowCatch.Source.Parser

/-!
What binds names: patterns, and the parameters of functions. Arguments and
decorators stand here too, since parameters can be decorated.
-/

namespace ThrowCatch.Source

/-! Lists in angle brackets. The closing bracket may be the first character of
a longer sign. -/

def closeAngle : Parser Bool := do
  if (← peekChar) == some '>' then
    take 1
    pure true
  else pure false

def angledFrom (item : Parser Node) : Nat → Parser (List Node)
  | 0 => failure
  | fuel + 1 => do
    let x ← item
    if ← closeAngle then pure [x]
    else
      punct ","
      if ← closeAngle then pure [x]
      else return x :: (← angledFrom item fuel)

def angled (kind : String) (item : Parser Node) : Parser Node := do
  let start ← token
  expect (start.rest.head? == some '<')
  take 1
  let xs ← angledFrom item (← room)
  node kind start xs

def typeArguments (r : Rules) : Parser Node := angled "type_arguments" (r.read .type)

/-- The type behind a colon. -/
def typeMark (r : Rules) : Parser Node := do
  let start ← token
  punct ":"
  let comments := (← get).skip.comments
  let t ← r.read .type
  node "type_annotation" start (comments ++ [t])

/-- A type behind a colon, where types are written. -/
def maybeTypeMark (r : Rules) : Parser (List Node) :=
  if r.typed then maybe (typeMark r) else pure []

/-! Arguments and decorators. -/

def spread (r : Rules) : Parser Node := do
  let start ← token
  punct "..."
  let x ← r.assignment
  node "spread_element" start [x]

def arguments (r : Rules) : Parser Node := do
  let start ← token
  punct "("
  let xs ← sparseItems ")" (spread r <|> r.assignment)
  node "arguments" start xs

/-- An expression in parentheses. Where types are written it may have one. -/
def parenthesized (r : Rules) : Parser Node := do
  let start ← token
  punct "("
  let x ← r.expression
  let type ← maybeTypeMark r
  punct ")"
  node "parenthesized_expression" start (x :: type)

/-- A dotted name, with arguments when it is called. -/
def decoratorName (r : Rules) : Parser Node := do
  let start ← token
  let names ← separated (accept ".") propertyName
  let types ← if r.typed then maybe (typeArguments r) else pure []
  let calls ← many (arguments r)
  node (if calls.isEmpty then "member_expression" else "call_expression") start
    (names ++ types ++ calls)

def decorator (r : Rules) : Parser Node := do
  let start ← token
  punct "@"
  let x ← parenthesized r <|> decoratorName r
  node "decorator" start [x]

/-- The value behind an equals sign. -/
def initializer (r : Rules) (m : Mode) : Parser Node := do
  punct "="
  r.read (.assignment m)

def maybeInitializer (r : Rules) : Parser (List Node) := maybe (initializer r .free)

/-! Patterns. -/

def computedName (r : Rules) : Parser Node := do
  let start ← token
  punct "["
  let x ← r.assignment
  punct "]"
  node "computed_property_name" start [x]

/-- The name of a member. -/
def memberName (r : Rules) : Parser Node :=
  propertyName <|> stringLiteral <|> number <|> computedName r <|> privateName

/-- A pattern with an optional value in case there is none to bind. -/
def bindingElement (r : Rules) : Parser Node := do
  let start ← token
  let target ← r.read .binding
  let value ← maybeInitializer r
  if value.isEmpty then pure target else node "assignment_pattern" start (target :: value)

def restPattern (r : Rules) : Parser Node := do
  let start ← token
  punct "..."
  let target ← r.read .binding
  node "rest_pattern" start [target]

def pairPattern (r : Rules) : Parser Node := do
  let start ← token
  let key ← memberName r
  punct ":"
  let target ← bindingElement r
  node "pair_pattern" start [key, target]

def objectPattern (r : Rules) : Parser Node := do
  let start ← token
  punct "\x7b"
  let xs ← sparseItems "\x7d" (restPattern r <|> pairPattern r <|> bindingElement r)
  node "object_pattern" start xs

def arrayPattern (r : Rules) : Parser Node := do
  let start ← token
  punct "["
  let xs ← sparseItems "]" (restPattern r <|> bindingElement r)
  node "array_pattern" start xs

def binding (r : Rules) : Parser Node :=
  identifier <|> objectPattern r <|> arrayPattern r

/-! Parameters. -/

/-- Passes words that qualify what follows. A word is such a word only when
what follows can be qualified. -/
def modifiersFrom (words : List String) (follows : Parser Bool) : Nat → Parser Unit
  | 0 => pure ()
  | fuel + 1 => (do
    let w ← peekWord
    expect (words.contains w)
    take w.length
    expect (← follows)
    modifiersFrom words follows fuel) <|> pure ()

/-- Whether a pattern comes next. -/
def seesBinding : Parser Bool := do
  if ← seesAny ["\x7b", "[", "..."] then pure true
  else return (← peekWord) != ""

def parameterModifiers : List String :=
  ["public", "private", "protected", "readonly", "override"]

def thisParameter : Parser Node := do
  expect ((← peekWord) == "this")
  leaf "this" 4

def parameter (r : Rules) : Parser Node := do
  let start ← token
  let decorators ← many (decorator r)
  if r.typed then modifiersFrom parameterModifiers seesBinding 5
  let _ ← accept "..."
  let target ← r.read .binding <|> (do expect r.typed; thisParameter)
  let optional ← if r.typed then accept "?" else pure false
  let type ← maybeTypeMark r
  let value ← maybeInitializer r
  node (if optional then "optional_parameter" else "required_parameter") start
    (decorators ++ [target] ++ type ++ value)

def parameters (r : Rules) : Parser Node := do
  let start ← token
  punct "("
  let xs ← items ")" (parameter r)
  node "formal_parameters" start xs

end ThrowCatch.Source
