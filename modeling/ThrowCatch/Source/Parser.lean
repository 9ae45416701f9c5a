import ThrowCatch.Language
import ThrowCatch.Source.Lexeme

/-!
Reading pieces of a source text one after the other. A parser moves a cursor
and gives a result, or refuses, and then the cursor stays where it was. The
cursor stands behind the last token that was read, so it marks the end of the
node being read.
-/

namespace ThrowCatch.Source

/-- Parsers know how many characters the text has, which is more often than
anything in it is repeated. -/
abbrev Parser := ReaderT Nat (StateT Cursor Option)

/-- How an expression may go on: whether `in` is an operator in it, and whether
the parameters of an arrow function may be followed by a type. -/
structure Mode where
  allowIn : Bool
  arrowTypes : Bool
  deriving DecidableEq, Repr

def Mode.free : Mode := ⟨true, true⟩

/-- What one part of the grammar asks another part for. -/
inductive Goal
  | statement
  | block
  | expression (m : Mode)
  | assignment (m : Mode)
  | operand (whole : Bool)
  | chain
  | creation
  | binding
  | type
  | element
  deriving DecidableEq, Repr

/-- The language being read, and the reading of everything that can stand
inside what is read. -/
structure Rules where
  language : Language
  read : Goal → Parser Node

namespace Rules

def typed (r : Rules) : Bool := r.language.isTyped

/-- Whether a tag can stand for a value. -/
def markup (r : Rules) : Bool := r.language != .typescript

def expression (r : Rules) : Parser Node := r.read (.expression .free)

def assignment (r : Rules) : Parser Node := r.read (.assignment .free)

end Rules

/-- How often something can be repeated. -/
def room : Parser Nat := return (← read) + 1

/-! Tokens. -/

/-- Where the next token begins. -/
def token : Parser Cursor := return (← get).next

/-- Whether a line ends before the next token. -/
def breaks : Parser Bool := return (← get).breaks

def peekChar : Parser (Option Char) := return (← token).rest.head?

/-- Passes characters of the next token. -/
def take (n : Nat) : Parser Unit := do
  let c ← token
  if n = 0 then failure else set (Cursor.advance n c)

/-- Refuses unless a condition holds. -/
def expect (b : Bool) : Parser Unit := if b then pure () else failure

/-- Whether some punctuation comes next. -/
def sees (s : String) : Parser Bool := do
  let cs := (← token).rest
  let want := s.toList
  pure (want.head? == cs.head? && symbol? cs == some want)

def punct (s : String) : Parser Unit := do
  expect (← sees s)
  take s.length

def accept (s : String) : Parser Bool := do
  if ← sees s then
    take s.length
    pure true
  else pure false

/-- Whether one of some signs comes next. -/
def seesAny (signs : List String) : Parser Bool := do
  match symbol? (← token).rest with
  | some s => pure (signs.contains (String.ofList s))
  | none => pure false

/-- The word to come, empty when there is none. -/
def peekWord : Parser String := do
  let cs := (← token).rest
  pure (String.ofList (cs.take (wordLength cs)))

/-- Reads any word. -/
def anyWord : Parser String := do
  let w ← peekWord
  take w.length
  pure w

def keyword (s : String) : Parser Unit := do
  expect ((← peekWord) == s)
  take s.length

def acceptWord (s : String) : Parser Bool := do
  if (← peekWord) == s then
    take s.length
    pure true
  else pure false

/-- What a parser would give, the cursor staying where it is. -/
def ahead (p : Parser Bool) : Parser Bool := do
  let c ← get
  let b ← p <|> pure false
  set c
  pure b

/-- One node or none. -/
def maybe (p : Parser Node) : Parser (List Node) :=
  (do return [← p]) <|> pure []

/-! Nodes. -/

/-- A node from a start to the cursor. -/
def node (kind : String) (start : Cursor) (children : List Node) : Parser Node := do
  pure ⟨kind, true, none, start.pos, (← get).pos, start.row, children⟩

/-- A node without children for the given number of characters. -/
def leaf (kind : String) (n : Nat) : Parser Node := do
  let start ← token
  take n
  node kind start []

/-- A word that names something. -/
def identifier : Parser Node := do
  let w ← peekWord
  expect (w != "" && !reservedWords.contains w)
  leaf (if w == "undefined" then "undefined" else "identifier") w.length

/-- Any word, as the name of a member. -/
def propertyName : Parser Node := do
  leaf "property_identifier" (← peekWord).length

def privateName : Parser Node := do
  let start ← token
  expect (start.rest.head? == some '#')
  let n := wordLength (start.rest.drop 1)
  expect (n != 0)
  set (Cursor.advance (n + 1) start)
  node "private_property_identifier" start []

def number : Parser Node := do
  leaf "number" (numberLength (← token).rest)

def stringLiteral : Parser Node := do
  match (← token).rest with
  | [] => failure
  | q :: cs =>
    expect (q == '"' || q == apostrophe)
    match stringTail q cs with
    | some n => leaf "string" (n + 1)
    | none => failure

/-! Repetition. What is repeated passes at least one character each time, so
the number of characters is fuel enough. -/

def manyFrom (p : Parser Node) : Nat → Parser (List Node)
  | 0 => pure []
  | fuel + 1 => (do
    let x ← p
    return x :: (← manyFrom p fuel)) <|> pure []

/-- As many as can be read. -/
def many (p : Parser Node) : Parser (List Node) := do
  manyFrom p (← room)

def untilFrom (stop : Parser Bool) (p : Parser Node) : Nat → Parser (List Node)
  | 0 => failure
  | fuel + 1 => do
    if ← stop then pure []
    else
      let x ← p
      return x :: (← untilFrom stop p fuel)

/-- All up to a stop, which is passed. -/
def manyUntil (stop : Parser Bool) (p : Parser Node) : Parser (List Node) := do
  untilFrom stop p (← room)

def itemsFrom (gaps : Bool) (close : String) (item : Parser Node) : Nat → Parser (List Node)
  | 0 => failure
  | fuel + 1 => do
    if ← accept close then pure []
    else if ← (if gaps then accept "," else pure false) then itemsFrom gaps close item fuel
    else
      let x ← item
      if ← accept close then pure [x]
      else
        punct ","
        return x :: (← itemsFrom gaps close item fuel)

/-- Items with commas between them up to a closing sign, which is passed. A
comma may also stand behind the last item. -/
def items (close : String) (item : Parser Node) : Parser (List Node) := do
  itemsFrom false close item (← room)

/-- The same, where items may be left out between the commas. -/
def sparseItems (close : String) (item : Parser Node) : Parser (List Node) := do
  itemsFrom true close item (← room)

def separatedFrom (separator : Parser Bool) (item : Parser Node) : Nat → Parser (List Node)
  | 0 => failure
  | fuel + 1 => do
    let x ← item
    if ← separator then return x :: (← separatedFrom separator item fuel) else pure [x]

/-- At least one item, with separators between them. -/
def separated (separator : Parser Bool) (item : Parser Node) : Parser (List Node) := do
  separatedFrom separator item (← room)

/-- The rest of a template behind its first accent. Its text is taken as it
is, without passing blanks. -/
def templateFrom (inner : Parser Node) : Nat → Parser (List Node)
  | 0 => failure
  | fuel + 1 => do
    let c ← get
    let c := Cursor.advance (templateText c.rest) c
    match c.rest with
    | '$' :: '\x7b' :: _ =>
      set (Cursor.advance 2 c)
      let x ← inner
      punct "\x7d"
      return x :: (← templateFrom inner fuel)
    | q :: _ =>
      expect (q == accent)
      set c.step
      pure []
    | [] => failure

def template (kind : String) (inner : Parser Node) : Parser Node := do
  let start ← token
  expect (start.rest.head? == some accent)
  set start.step
  let xs ← templateFrom inner (← room)
  node kind start xs

/-- Signs before which a statement goes on although a line ended. -/
def continuing : List Char := ",:;*%><=?^|&/".toList ++ [accent]

/-- Whether a statement goes on with what comes next on a later line. -/
def continues (cs : List Char) : Bool :=
  match cs with
  | [] => false
  | c :: rest =>
    let next := rest.head?
    if c == '.' then !(next.any Char.isDigit)
    else if c == '+' || c == '-' then next != some c
    else if c == '!' then next == some '='
    else
      continuing.contains c || ["in", "instanceof"].contains (String.ofList (cs.take (wordLength cs)))

/-- Whether a statement can end here without a semicolon. -/
def endsFreely : Parser Bool := do
  let s := (← get).skip
  let cs := s.cursor.rest
  pure (cs.isEmpty || cs.head? == some '\x7d' || (s.broken && !continues cs))

/-- The end of a statement: a semicolon, or none where a line or a block
ends. -/
def semicolon : Parser Unit := do
  if ← accept ";" then pure () else expect (← endsFreely)

end ThrowCatch.Source
