import ThrowCatch.Source.Types

/-!
Elements in angle brackets, as values of expressions. The text between tags is
taken as it is; braces lead back into expressions.
-/

namespace ThrowCatch.Source

/-- The length of a name in a tag, in which dashes may stand. -/
def tagWordLength (cs : List Char) : Nat :=
  match cs with
  | [] => 0
  | c :: _ =>
    if isWordStart c then (cs.takeWhile fun c => isWordChar c || c == '-').length else 0

def tagWord : Parser Node := do
  leaf "identifier" (tagWordLength (← token).rest)

/-- The name of an element, with dots or a colon in it. -/
def tagName : Parser Node := do
  let start ← token
  let names ← separated (do
    if ← accept "." then pure true else accept ":") tagWord
  match names with
  | [name] => pure name
  | names => node "nested_identifier" start names

/-- An expression in braces; it may be missing, or be spread out. -/
def container (r : Rules) : Parser Node := do
  let start ← token
  punct "\x7b"
  let inside ← maybe (spread r <|> r.expression)
  punct "\x7d"
  node "jsx_expression" start inside

/-- The length of a quoted value behind its quote. Nothing is escaped. -/
def quotedLength (quote : Char) (cs : List Char) : Option Nat :=
  let n := (cs.takeWhile (· != quote)).length
  if n < cs.length then some (n + 1) else none

def quotedValue : Parser Node := do
  match (← token).rest with
  | [] => failure
  | q :: cs =>
    expect (q == '"' || q == apostrophe)
    match quotedLength q cs with
    | some n => leaf "string" (n + 1)
    | none => failure

def tagAttribute (r : Rules) : Parser Node := container r <|> (do
  let start ← token
  let name ← tagName
  let value ← maybe (do
    punct "="
    quotedValue <|> container r <|> r.read .element)
  node "jsx_attribute" start (name :: value))

/-- Passes a closing tag. -/
def closeTag : Parser Bool := ahead (do punct "<"; sees "/") >>= fun closes =>
  if closes then do
    punct "<"
    punct "/"
    let _ ← maybe tagName
    expect (← closeAngle)
    pure true
  else pure false

def isTagText (c : Char) : Bool :=
  c != '<' && c != '>' && c != '\x7b' && c != '\x7d'

/-- Passes the text up to the next tag or brace. -/
def tagText : Parser Unit := do
  let c ← get
  set (Cursor.advance (c.rest.takeWhile isTagText).length c)

/-- What stands between an opening and a closing tag, which is passed. -/
def contentFrom (r : Rules) : Nat → Parser (List Node)
  | 0 => failure
  | fuel + 1 => do
    tagText
    match (← get).rest with
    | '<' :: _ =>
      if ← closeTag then pure []
      else
        let x ← r.read .element
        return x :: (← contentFrom r fuel)
    | '\x7b' :: _ =>
      let x ← container r
      return x :: (← contentFrom r fuel)
    | _ => failure

def content (r : Rules) : Parser (List Node) := do
  contentFrom r (← room)

def element (r : Rules) : Parser Node := do
  let start ← token
  punct "<"
  if ← closeAngle then
    let inside ← content r
    node "jsx_element" start inside
  else
    let name ← tagName
    let types ← if r.typed then maybe (typeArguments r) else pure []
    let attributes ← many (tagAttribute r)
    if ← accept "/" then
      expect (← closeAngle)
      node "jsx_self_closing_element" start ([name] ++ types ++ attributes)
    else
      expect (← closeAngle)
      let inside ← content r
      node "jsx_element" start ([name] ++ types ++ attributes ++ inside)

end ThrowCatch.Source
