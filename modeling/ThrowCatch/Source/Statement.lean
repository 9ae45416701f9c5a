import ThrowCatch.Source.Expression

/-!
Statements, apart from those that import and export.
-/

namespace ThrowCatch.Source

def block (r : Rules) : Parser Node := do
  let start ← token
  punct "\x7b"
  let xs ← manyUntil (accept "\x7d") (r.read .statement)
  node "statement_block" start xs

def emptyStatement : Parser Node := do
  let start ← token
  punct ";"
  node "empty_statement" start []

/-! Variables. -/

/-- Whether a pattern that binds variables comes next. -/
def seesTarget : Parser Bool := do
  if ← seesAny ["\x7b", "["] then pure true
  else
    let w ← peekWord
    pure (w != "" && !reservedWords.contains w)

/-- Passes the word that declares variables. -/
def variableWord (r : Rules) : Parser Unit := do
  let w ← peekWord
  if w == "var" || w == "let" || w == "const" then
    take w.length
    expect (← seesTarget)
  else
    expect (!r.typed)
    let _ ← acceptWord "await"
    keyword "using"
    expect (!(← breaks) && !(["of", "in"].contains (← peekWord)) && (← peekWord) != "")

def declarator (r : Rules) (m : Mode) : Parser Node := do
  let start ← token
  let target ← r.read .binding
  let _ ← if r.typed then accept "!" else pure false
  let type ← maybeTypeMark r
  let value ← maybe (initializer r m)
  node "variable_declarator" start ([target] ++ type ++ value)

def variableList (r : Rules) (m : Mode) : Parser Node := do
  let start ← token
  variableWord r
  let xs ← separated (accept ",") (declarator r m)
  node "lexical_declaration" start xs

def variableStatement (r : Rules) : Parser Node := do
  let start ← token
  let x ← variableList r .free
  semicolon
  node "lexical_declaration" start x.children

/-! Branches and loops. -/

def ifStatement (r : Rules) : Parser Node := do
  let start ← token
  keyword "if"
  let test ← parenthesized r
  let yes ← r.read .statement
  let no ← maybe (do keyword "else"; r.read .statement)
  node "if_statement" start ([test, yes] ++ no)

/-- The head of a loop over members: what is bound, and what is gone
through. -/
def eachHead (r : Rules) : Parser (List Node) := do
  let target ← (do
      variableWord r
      r.read .binding) <|> chain r true
  let w ← peekWord
  expect (w == "in" || w == "of")
  take 2
  let x ← r.expression
  pure [target, x]

/-- The head of a loop that counts. -/
def stepsHead (r : Rules) : Parser (List Node) := do
  let first ← maybe (variableList r ⟨false, true⟩ <|> r.read (.expression ⟨false, true⟩))
  punct ";"
  let test ← maybe r.expression
  punct ";"
  let step ← maybe r.expression
  return first ++ test ++ step

def forStatement (r : Rules) : Parser Node := do
  let start ← token
  keyword "for"
  let _ ← acceptWord "await"
  punct "("
  let head ← (do
      let head ← eachHead r
      punct ")"
      pure head) <|> (do
      let head ← stepsHead r
      punct ")"
      pure head)
  let body ← r.read .statement
  node "for_statement" start (head ++ [body])

def whileStatement (r : Rules) : Parser Node := do
  let start ← token
  keyword "while"
  let test ← parenthesized r
  let body ← r.read .statement
  node "while_statement" start [test, body]

def doStatement (r : Rules) : Parser Node := do
  let start ← token
  keyword "do"
  let body ← r.read .statement
  keyword "while"
  let test ← parenthesized r
  let _ ← accept ";"
  node "do_statement" start [body, test]

def withStatement (r : Rules) : Parser Node := do
  let start ← token
  keyword "with"
  let x ← parenthesized r
  let body ← r.read .statement
  node "with_statement" start [x, body]

/-- Whether the statements of a case end here. -/
def endsCase : Parser Bool := ahead (do
  if ← sees "\x7d" then pure true
  else return ["case", "default"].contains (← peekWord))

def switchCase (r : Rules) : Parser Node := do
  let start ← token
  let test ← (do
      keyword "case"
      return [← r.expression]) <|> (do
      keyword "default"
      return [])
  punct ":"
  let xs ← manyUntil endsCase (r.read .statement)
  node "switch_case" start (test ++ xs)

def switchStatement (r : Rules) : Parser Node := do
  let start ← token
  keyword "switch"
  let x ← parenthesized r
  punct "\x7b"
  let cases ← manyUntil (accept "\x7d") (switchCase r)
  node "switch_statement" start (x :: cases)

/-! Errors. -/

/-- What a catch clause binds, with the type that is declared for it. -/
def catchParameter (r : Rules) : Parser (List Node) := do
  punct "("
  let target ← r.read .binding
  let type ← maybeTypeMark r
  punct ")"
  return target.withField "parameter" :: type.map (·.withField "type")

def catchClause (r : Rules) : Parser Node := do
  let start ← token
  keyword "catch"
  let parameter ← catchParameter r <|> pure []
  let body ← r.read .block
  node "catch_clause" start (parameter ++ [body.withField "body"])

def finallyClause (r : Rules) : Parser Node := do
  let start ← token
  keyword "finally"
  let body ← r.read .block
  node "finally_clause" start [body]

def tryStatement (r : Rules) : Parser Node := do
  let start ← token
  keyword "try"
  let body ← r.read .block
  let handler ← maybe (catchClause r)
  let cleanup ← maybe (finallyClause r)
  node "try_statement" start ([body] ++ handler ++ cleanup)

def throwStatement (r : Rules) : Parser Node := do
  let start ← token
  keyword "throw"
  let x ← r.expression
  semicolon
  node "throw_statement" start [x]

/-! Leaving. -/

def returnStatement (r : Rules) : Parser Node := do
  let start ← token
  keyword "return"
  let value ← if ← endsFreely then pure [] else maybe r.expression
  semicolon
  node "return_statement" start value

def jumpStatement : Parser Node := do
  let start ← token
  let w ← anyWord
  expect (w == "break" || w == "continue")
  let label ← if ← breaks then pure [] else maybe identifier
  semicolon
  node (w ++ "_statement") start label

def debuggerStatement : Parser Node := do
  let start ← token
  keyword "debugger"
  semicolon
  node "debugger_statement" start []

def labeledStatement (r : Rules) : Parser Node := do
  let start ← token
  let label ← identifier
  punct ":"
  let body ← r.read .statement
  node "labeled_statement" start [label, body]

def expressionStatement (r : Rules) : Parser Node := do
  let start ← token
  let x ← r.expression
  semicolon
  node "expression_statement" start [x]

/-! Declarations of types. -/

def interfaceDeclaration (r : Rules) : Parser Node := do
  let start ← token
  keyword "interface"
  let name ← identifier
  let types ← maybeTypeParameters r
  let up ← (do
      keyword "extends"
      separated (accept ",") (r.read .type)) <|> pure []
  let body ← objectType r
  node "interface_declaration" start ([name] ++ types ++ up ++ [body])

def typeAlias (r : Rules) : Parser Node := do
  let start ← token
  keyword "type"
  let name ← identifier
  let types ← maybeTypeParameters r
  punct "="
  let type ← r.read .type
  semicolon
  node "type_alias_declaration" start ([name] ++ types ++ [type])

def enumMember (r : Rules) : Parser Node := do
  let start ← token
  let name ← memberName r
  let value ← maybeInitializer r
  node "enum_assignment" start (name :: value)

def enumDeclaration (r : Rules) : Parser Node := do
  let start ← token
  let _ ← acceptWord "const"
  keyword "enum"
  let name ← identifier
  punct "\x7b"
  let xs ← items "\x7d" (enumMember r)
  node "enum_declaration" start (name :: xs)

/-- A space of names, or the declarations of a file that is named. -/
def namespaceDeclaration (r : Rules) : Parser Node := do
  let start ← token
  let w ← anyWord
  expect (w == "namespace" || w == "module")
  expect (!(← breaks))
  let name ← stringLiteral <|> (do
    let first ← identifier
    let names ← dottedNames
    node "nested_identifier" start (first :: names))
  let body ← (do return [← r.read .block]) <|> (do
    expect (name.kind == "string")
    semicolon
    pure [])
  node "internal_module" start (name :: body)

def globalBlock (r : Rules) : Parser Node := do
  let start ← token
  keyword "global"
  let body ← r.read .block
  node "internal_module" start [body]

/-- A declaration of something that exists elsewhere. -/
def ambientDeclaration (r : Rules) : Parser Node := do
  let start ← token
  keyword "declare"
  expect (!(← breaks))
  expect ((← peekWord) != "" && !(["in", "instanceof", "as", "satisfies"].contains (← peekWord)))
  let x ← globalBlock r <|> r.read .statement
  expect (x.kind != "expression_statement" && x.kind != "labeled_statement")
  node "ambient_declaration" start [x]

/-- Statements that begin with a word which only types give a meaning. -/
def typedStatement (r : Rules) : Parser Node := do
  let start ← token
  match ← peekWord with
  | "interface" => interfaceDeclaration r
  | "type" => typeAlias r
  | "enum" => enumDeclaration r
  | "const" => enumDeclaration r
  | "namespace" => namespaceDeclaration r
  | "module" => namespaceDeclaration r
  | "declare" => ambientDeclaration r
  | "abstract" => classDeclaration r start []
  | _ => failure

end ThrowCatch.Source
