import ThrowCatch.Source.Types

/-!
Functions and classes. A class node covers its decorators, and has its name as
a field and what it extends as a child of its own.
-/

namespace ThrowCatch.Source

/-! Functions. -/

/-- Passes `async` where it belongs to a function. -/
def acceptAsync : Parser Unit := do
  if ← ahead (do keyword "async"; return (← peekWord) == "function") then keyword "async"

def functionHead (r : Rules) : Parser (List Node) := do
  acceptAsync
  keyword "function"
  let _ ← accept "*"
  let name ← maybe identifier
  return name ++ (← signature r)

def functionExpression (r : Rules) : Parser Node := do
  let start ← token
  let head ← functionHead r
  let body ← r.read .block
  node "function_expression" start (head ++ [body])

/-- A function with a body, or its signature alone where types are written. -/
def functionDeclaration (r : Rules) : Parser Node := do
  let start ← token
  let head ← functionHead r
  (do
    let body ← r.read .block
    node "function_declaration" start (head ++ [body])) <|> (do
    expect r.typed
    semicolon
    node "function_signature" start head)

/-! Members of classes. -/

def staticBlock (r : Rules) : Parser Node := do
  let start ← token
  keyword "static"
  let body ← r.read .block
  node "class_static_block" start [body]

def seesQualified : Parser Bool := do
  if ← sees "*" then pure true else seesMemberName

/-- Words that qualify a member of a class. -/
def classModifiers (r : Rules) : List String :=
  if r.typed then memberModifiers else ["static", "async", "get", "set"]

def methodTail (r : Rules) (start : Cursor) (before : List Node) : Parser Node := do
  let parts ← signature r
  (do
    let body ← r.read .block
    node "method_definition" start (before ++ parts ++ [body])) <|> (do
    expect r.typed
    memberEnd
    node "method_signature" start (before ++ parts))

def fieldTail (r : Rules) (start : Cursor) (before : List Node) : Parser Node := do
  let type ← maybeTypeMark r
  let value ← maybeInitializer r
  semicolon
  node "field_definition" start (before ++ type ++ value)

/-- Passes the marks that a member may be missing, or that it is surely
there. -/
def acceptMarks (r : Rules) : Parser Unit := do
  if r.typed then
    let _ ← accept "?"
    let _ ← accept "!"

def classMember (r : Rules) : Parser Node := staticBlock r <|> (do
  let start ← token
  let decorators ← many (decorator r)
  modifiersFrom (classModifiers r) seesQualified 6
  (do
    expect r.typed
    let x ← indexSignature r
    memberEnd
    node "index_signature" start (decorators ++ [x])) <|> (do
    let _ ← accept "*"
    let name ← memberName r
    acceptMarks r
    if ← seesAny ["(", "<"] then methodTail r start (decorators ++ [name])
    else fieldTail r start (decorators ++ [name])))

def emptyMember : Parser Node := do
  let start ← token
  punct ";"
  node "empty_statement" start []

def classBody (r : Rules) : Parser Node := do
  let start ← token
  punct "\x7b"
  let members ← manyUntil (accept "\x7d") (emptyMember <|> classMember r)
  node "class_body" start members

/-! Classes. -/

/-- Whether what a class extends can end here. -/
def endsHeritage : Parser Bool := do
  if ← seesAny ["\x7b", ","] then pure true else return (← peekWord) == "implements"

/-- What a class extends, with type arguments where types are written. An
expression with operators in it stands there only when nothing else does. -/
def superclass (r : Rules) : Parser Node := do
  let start ← token
  (do
    let target ← r.read .chain
    let types ← if r.typed then maybe (typeArguments r) else pure []
    expect (← endsHeritage)
    if types.isEmpty then pure target else node "generic_type" start (target :: types)) <|>
    r.assignment

def extendsClause (r : Rules) : Parser Node := do
  let start ← token
  keyword "extends"
  let xs ← separated (accept ",") (superclass r)
  node "extends_clause" start xs

def implementsClause (r : Rules) : Parser Node := do
  let start ← token
  keyword "implements"
  let xs ← separated (accept ",") (r.read .type)
  node "implements_clause" start xs

/-- What a class extends and implements. Without types there is no clause node
between the class and the expression. -/
def heritage (r : Rules) : Parser Node := do
  let start ← token
  if r.typed then
    let up ← maybe (extendsClause r)
    let interfaces ← maybe (implementsClause r)
    expect (!(up ++ interfaces).isEmpty)
    node "class_heritage" start (up ++ interfaces)
  else
    keyword "extends"
    let target ← superclass r
    node "class_heritage" start [target]

/-- The name of a class. The word before a list of interfaces is none. -/
def className (r : Rules) : Parser (List Node) := do
  let clause ← ahead (do
    keyword "implements"
    return r.typed && (← peekWord) != "" && !(["extends", "implements"].contains (← peekWord)))
  if clause then pure [] else maybe (return (← identifier).withField "name")

/-- A class from its keyword on. The kind depends on whether it has a name. -/
def classTail (r : Rules) (start : Cursor) (before : List Node) (kind : Bool → String) :
    Parser Node := do
  keyword "class"
  let name ← className r
  let types ← maybeTypeParameters r
  let up ← maybe (heritage r)
  let body ← classBody r
  node (kind !name.isEmpty) start (before ++ name ++ types ++ up ++ [body])

def classExpression (r : Rules) : Parser Node := do
  let start ← token
  let decorators ← many (decorator r)
  let _ ← if r.typed then acceptWord "abstract" else pure false
  classTail r start decorators fun _ => "class"

def abstractClass (r : Rules) (start : Cursor) (before : List Node) : Parser Node := do
  expect r.typed
  keyword "abstract"
  let x ← classTail r start before fun _ => "abstract_class_declaration"
  expect (x.child? "name").isSome
  pure x

/-- A class as a statement, with the decorators read before it. Without a name
it is an expression that stands alone. -/
def classDeclaration (r : Rules) (start : Cursor) (before : List Node) : Parser Node :=
  abstractClass r start before <|>
    classTail r start before fun named => if named then "class_declaration" else "class"

end ThrowCatch.Source
