import ThrowCatch.Source.Binding

/-!
Types. They matter to the analysis only by where they end, and by the text of
the one that a catch clause declares.
-/

namespace ThrowCatch.Source

/-! Parameters of types. -/

def typeParameter (r : Rules) : Parser Node := do
  let start ← token
  modifiersFrom ["const", "in", "out"] (return (← peekWord) != "" && (← peekWord) != "extends") 3
  let w ← peekWord
  let _ ← leaf "type_identifier" w.length
  let bound ← maybe (do keyword "extends"; r.read .type)
  let value ← maybe (do punct "="; r.read .type)
  node "type_parameter" start (bound ++ value)

def typeParameters (r : Rules) : Parser Node := angled "type_parameters" (typeParameter r)

def maybeTypeParameters (r : Rules) : Parser (List Node) :=
  if r.typed then maybe (typeParameters r) else pure []

/-! What a function gives back: a type, or what is known of an argument when
the function returns. -/

def assertion (r : Rules) : Parser Node := do
  let start ← token
  keyword "asserts"
  expect (!(← breaks))
  let w ← anyWord
  expect (w != "is")
  let type ← maybe (do keyword "is"; r.read .type)
  node "asserts" start type

def typePredicate (r : Rules) : Parser Node := do
  let start ← token
  let _ ← anyWord
  expect (!(← breaks))
  keyword "is"
  let type ← r.read .type
  node "type_predicate" start [type]

def returnType (r : Rules) : Parser Node :=
  assertion r <|> typePredicate r <|> r.read .type

def resultMark (r : Rules) : Parser Node := do
  let start ← token
  punct ":"
  let t ← returnType r
  node "type_annotation" start [t]

/-- Parameters and the type of the result. -/
def signature (r : Rules) : Parser (List Node) := do
  let types ← maybeTypeParameters r
  let params ← parameters r
  let result ← if r.typed then maybe (resultMark r) else pure []
  return types ++ [params] ++ result

/-! Members of object types. -/

def indexSignature (r : Rules) : Parser Node := do
  let start ← token
  punct "["
  let _ ← identifier
  let key ← typeMark r
  punct "]"
  let value ← maybe (typeMark r)
  node "index_signature" start (key :: value)

/-- Whether the name of a member comes next. -/
def seesMemberName : Parser Bool := do
  match ← peekChar with
  | none => pure false
  | some c =>
    return c == '[' || c == '#' || c == '"' || c == apostrophe || c.isDigit || (← peekWord) != ""

def memberModifiers : List String :=
  ["readonly", "public", "private", "protected", "static", "override", "declare", "abstract",
    "accessor", "get", "set", "async"]

def callSignature (r : Rules) : Parser Node := do
  let start ← token
  let _ ← acceptWord "new"
  let parts ← signature r
  node "call_signature" start parts

def propertySignature (r : Rules) : Parser Node := do
  let start ← token
  modifiersFrom memberModifiers seesMemberName 4
  let member ← (do return [← indexSignature r]) <|> (do
    let name ← memberName r
    let _ ← accept "?"
    let parts ← signature r <|> maybe (typeMark r)
    return name :: parts)
  node "property_signature" start member

/-- The end of a member: a comma, a semicolon, or the end of a line. -/
def memberEnd : Parser Unit := do
  if ← accept "," then pure () else semicolon

def typeMember (r : Rules) : Parser Node := do
  let member ← callSignature r <|> propertySignature r
  memberEnd
  pure member

def signOf (s : String) : Parser Unit := do
  let _ ← accept "+"
  let _ ← accept "-"
  punct s

/-- The members that a type has for each key of another type. -/
def mappedMember (r : Rules) : Parser Node := do
  let start ← token
  let _ ← accept "+"
  let _ ← accept "-"
  let _ ← ahead (do keyword "readonly"; sees "[") >>= fun b =>
    if b then acceptWord "readonly" else pure false
  punct "["
  let _ ← identifier
  keyword "in"
  let keys ← r.read .type
  let names ← maybe (do keyword "as"; r.read .type)
  punct "]"
  let _ ← maybe (do signOf "?"; node "optional" start [])
  let value ← maybe (typeMark r)
  memberEnd
  node "index_signature" start ([keys] ++ names ++ value)

def objectType (r : Rules) : Parser Node := do
  let start ← token
  punct "\x7b"
  let members ← (do
      let member ← mappedMember r
      punct "\x7d"
      return [member]) <|>
    manyUntil (accept "\x7d") (typeMember r)
  node "object_type" start members

/-! Other types that stand alone. -/

def tupleLabel : Parser Unit := do
  let _ ← anyWord
  let _ ← accept "?"
  punct ":"

def tupleMember (r : Rules) : Parser Node := do
  let start ← token
  let _ ← accept "..."
  tupleLabel <|> pure ()
  let type ← r.read .type
  let _ ← accept "?"
  node "tuple_member" start [type]

def tupleType (r : Rules) : Parser Node := do
  let start ← token
  punct "["
  let xs ← items "]" (tupleMember r)
  node "tuple_type" start xs

def parenthesizedType (r : Rules) : Parser Node := do
  let start ← token
  punct "("
  let t ← r.read .type
  punct ")"
  node "parenthesized_type" start [t]

/-- Type arguments on the line of the name before them. -/
def maybeTypeArguments (r : Rules) : Parser (List Node) := do
  if ← breaks then pure [] else maybe (typeArguments r)

def importCall (r : Rules) : Parser Node := do
  let start ← token
  keyword "import"
  let xs ← arguments r
  node "call_expression" start [xs]

def dottedNames : Parser (List Node) := many (do punct "."; propertyName <|> privateName)

def typeQuery (r : Rules) : Parser Node := do
  let start ← token
  keyword "typeof"
  let first ← importCall r <|> propertyName
  let names ← dottedNames
  let types ← maybeTypeArguments r
  node "type_query" start ([first] ++ names ++ types)

def importType (r : Rules) : Parser Node := do
  let start ← token
  let first ← importCall r
  let names ← dottedNames
  let types ← maybeTypeArguments r
  node "import_type" start ([first] ++ names ++ types)

def typeName (r : Rules) : Parser Node := do
  let start ← token
  let w ← peekWord
  expect (w != "" &&
    (!reservedWords.contains w ||
      ["this", "null", "void", "true", "false", "const"].contains w))
  let first ← leaf "type_identifier" w.length
  let names ← dottedNames
  let types ← maybeTypeArguments r
  node "type_identifier" start ([first] ++ names ++ types)

def negativeNumber : Parser Node := do
  let start ← token
  punct "-"
  let n ← number
  node "unary_expression" start [n]

def primaryType (r : Rules) : Parser Node :=
  typeQuery r <|> importType r <|> typeName r <|> objectType r <|> parenthesizedType r <|>
    tupleType r <|> stringLiteral <|> number <|> negativeNumber <|>
    template "template_literal_type" (r.read .type)

/-! Types made of types. -/

def arraySuffixes (r : Rules) (start : Cursor) : Nat → Node → Parser Node
  | 0, t => pure t
  | fuel + 1, t => (do
    expect (!(← breaks))
    punct "["
    let index ← maybe (r.read .type)
    punct "]"
    let t ← node (if index.isEmpty then "array_type" else "lookup_type") start (t :: index)
    arraySuffixes r start fuel t) <|> pure t

def suffixedType (r : Rules) : Parser Node := do
  let start ← token
  let t ← primaryType r
  arraySuffixes r start (← room) t

/-- A name for a part of a type that is matched. Its bound is taken when no
condition follows, or when the condition that follows belongs to a type around
it. -/
def inferType (r : Rules) (inCondition : Bool) : Parser Node := do
  let start ← token
  keyword "infer"
  let name ← identifier
  let bound ← maybe (do
    keyword "extends"
    let t ← suffixedType r
    expect (inCondition || !(← sees "?"))
    pure t)
  node "infer_type" start (name :: bound)

def seesType : Parser Bool := do
  if ← seesAny ["(", "[", "\x7b"] then pure true
  else return (← peekWord) != "" && (← peekWord) != "extends"

def functionType (r : Rules) : Parser Node := do
  let start ← token
  let types ← maybeTypeParameters r
  let params ← parameters r
  punct "=>"
  let result ← returnType r
  node "function_type" start (types ++ [params, result])

def constructorType (r : Rules) : Parser Node := do
  let start ← token
  let _ ← acceptWord "abstract"
  keyword "new"
  let f ← functionType r
  node "constructor_type" start [f]

def operandType (r : Rules) (inCondition : Bool) : Parser Node := do
  let start ← token
  if ← seesAny ["(", "<"] then functionType r <|> suffixedType r
  else
    constructorType r <|> inferType r inCondition <|> (do
      modifiersFrom ["keyof", "unique", "readonly"] seesType (← room)
      let inside ← token
      let t ← suffixedType r
      if inside.pos = start.pos then pure t else node "type_operator" start [t])

/-- Types with a sign between them, which may also stand in front. -/
def joinedTypes (kind sign : String) (inner : Parser Node) : Parser Node := do
  let start ← token
  let leading ← accept sign
  let ts ← separated (accept sign) inner
  match ts, leading with
  | [t], false => pure t
  | ts, _ => node kind start ts

def unionType (r : Rules) (inCondition : Bool) : Parser Node :=
  joinedTypes "union_type" "|"
    (joinedTypes "intersection_type" "&" (operandType r inCondition))

def typeExpression (r : Rules) : Parser Node := do
  let start ← token
  let t ← unionType r false
  let cases ← (do
      keyword "extends"
      let bound ← unionType r true
      punct "?"
      let yes ← r.read .type
      punct ":"
      let no ← r.read .type
      return [bound, yes, no]) <|> pure []
  if cases.isEmpty then pure t else node "conditional_type" start (t :: cases)

end ThrowCatch.Source
