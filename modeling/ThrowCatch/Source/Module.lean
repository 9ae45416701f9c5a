import ThrowCatch.Source.Statement

/-!
Imports, exports and whole files.
-/

namespace ThrowCatch.Source

/-! Imports. -/

/-- A name in braces, with the words around it. -/
def specifier : Parser Node := do
  let start ← token
  let first ← propertyName <|> stringLiteral
  let more ← many (propertyName <|> stringLiteral)
  node "import_specifier" start (first :: more)

def specifiers : Parser Node := do
  let start ← token
  punct "\x7b"
  let xs ← items "\x7d" specifier
  node "named_imports" start xs

def wholeImport : Parser Node := do
  let start ← token
  punct "*"
  keyword "as"
  let name ← identifier
  node "namespace_import" start [name]

def importClause : Parser Node := do
  let start ← token
  let first ← identifier <|> wholeImport <|> specifiers
  let more ← maybe (do punct ","; wholeImport <|> specifiers)
  node "import_clause" start (first :: more)

/-- What is said about a file that is imported. -/
def importAttributes (r : Rules) : Parser (List Node) := maybe (do
  let w ← anyWord
  expect (w == "with" || w == "assert")
  object r)

def fromFile (r : Rules) : Parser (List Node) := do
  keyword "from"
  let file ← stringLiteral
  return file :: (← importAttributes r)

/-- A name for something of another name space, or for a file. -/
def importAlias (r : Rules) : Parser (List Node) := do
  let name ← identifier
  punct "="
  let x ← chain r true
  pure [name, x]

def importParts (r : Rules) : Parser (List Node) :=
  (do
    let file ← stringLiteral
    return file :: (← importAttributes r)) <|> (do
    let clause ← importClause
    return clause :: (← fromFile r)) <|> (do
    expect r.typed
    importAlias r) <|> (do
    expect r.typed
    keyword "type"
    (do
      let clause ← importClause
      return clause :: (← fromFile r)) <|> importAlias r)

def importStatement (r : Rules) : Parser Node := do
  let start ← token
  keyword "import"
  let parts ← importParts r
  semicolon
  node "import_statement" start parts

/-! Exports. -/

/-- Everything of another file. -/
def exportAll (r : Rules) : Parser (List Node) := do
  punct "*"
  let name ← maybe (do keyword "as"; propertyName <|> stringLiteral)
  let file ← fromFile r
  semicolon
  return name ++ file

def exportNames (r : Rules) : Parser (List Node) := do
  let names ← specifiers
  let file ← fromFile r <|> pure []
  semicolon
  return names :: file

def exportDefault (r : Rules) : Parser (List Node) := do
  keyword "default"
  let start ← token
  let decorators ← many (decorator r)
  (do return [← functionDeclaration r]) <|> (do
    return [← classDeclaration r start decorators]) <|> (do
    expect r.typed
    return [← interfaceDeclaration r]) <|> (do
    let x ← r.assignment
    semicolon
    pure [x])

def declarationWords (r : Rules) : List String :=
  ["var", "let", "const", "function", "async", "class", "using"] ++
    if r.typed then
      ["abstract", "interface", "type", "enum", "namespace", "module", "declare"]
    else []

def exportDeclaration (r : Rules) : Parser (List Node) := do
  if (← peekChar) != some '@' then
    expect ((declarationWords r).contains (← peekWord))
  let x ← r.read .statement
  expect (x.kind != "expression_statement" && x.kind != "class")
  pure [x]

/-- Exports that only types give a meaning. -/
def typedExport (r : Rules) : Parser (List Node) := do
  expect r.typed
  (do
    punct "="
    let x ← r.expression
    semicolon
    pure [x]) <|> (do
    keyword "as"
    keyword "namespace"
    let name ← identifier
    semicolon
    pure [name]) <|> (do
    keyword "import"
    let _ ← ahead (do keyword "type"; return (← peekWord) != "") >>= fun b =>
      if b then acceptWord "type" else pure false
    let parts ← importAlias r
    semicolon
    pure parts) <|> (do
    keyword "type"
    exportAll r <|> exportNames r)

/-- An export, with the decorators read before it. -/
def exportStatement (r : Rules) (start : Cursor) (before : List Node) : Parser Node := do
  keyword "export"
  let parts ← exportDefault r <|> exportAll r <|> exportNames r <|> typedExport r <|>
    exportDeclaration r
  node "export_statement" start (before ++ parts)

/-! All statements. -/

/-- A class or an export behind decorators. -/
def decoratedStatement (r : Rules) : Parser Node := do
  let start ← token
  let decorators ← many (decorator r)
  expect (!decorators.isEmpty)
  if (← peekWord) == "export" then exportStatement r start decorators
  else classDeclaration r start decorators

/-- Statements that begin with a word of their own. -/
def wordStatement (r : Rules) (w : String) : Parser Node := do
  let start ← token
  match w with
  | "if" => ifStatement r
  | "for" => forStatement r
  | "while" => whileStatement r
  | "do" => doStatement r
  | "with" => withStatement r
  | "switch" => switchStatement r
  | "try" => tryStatement r
  | "throw" => throwStatement r
  | "return" => returnStatement r
  | "break" => jumpStatement
  | "continue" => jumpStatement
  | "debugger" => debuggerStatement
  | "var" => variableStatement r
  | "const" => variableStatement r
  | "let" => variableStatement r
  | "using" => variableStatement r
  | "await" => variableStatement r
  | "function" => functionDeclaration r
  | "async" => functionDeclaration r
  | "class" => classDeclaration r start []
  | "import" => importStatement r
  | "export" => exportStatement r start []
  | _ => failure

def statement (r : Rules) : Parser Node := do
  match ← peekChar with
  | none => failure
  | some c =>
    if c == '\x7b' then block r
    else if c == ';' then emptyStatement
    else if c == '@' then decoratedStatement r
    else
      let w ← peekWord
      if w == "" then expressionStatement r
      else
        (do
          expect r.typed
          typedStatement r) <|> wordStatement r w <|> labeledStatement r <|> expressionStatement r

/-- Passes the first line when it names a program to run the file with. -/
def hashbang : Parser Unit := do
  let c ← token
  match c.rest with
  | '#' :: '!' :: _ =>
    set (Cursor.advance (c.rest.takeWhile fun x => !endsComment x).length c)
  | _ => pure ()

def atEnd : Parser Bool := return (← token).rest.isEmpty

def file (r : Rules) : Parser Node := do
  let start ← get
  hashbang
  let xs ← manyUntil atEnd (r.read .statement)
  node "program" start xs

end ThrowCatch.Source
