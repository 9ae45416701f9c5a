import ThrowCatch.Source.Cursor

/-!
The pieces of source texts: words, numbers, strings, regular expressions and
punctuation. Each function here looks at the characters to come and tells how
many of them belong to the piece.
-/

namespace ThrowCatch.Source

def accent : Char := Char.ofNat 96

def apostrophe : Char := Char.ofNat 39

/-- Signs that never stand in a word. -/
def signs : List Char :=
  (":;\"@#.,|^&<=>+-*/\\%?!~()[]\x7b\x7d".toList) ++ [accent, apostrophe]

def isWordChar (c : Char) : Bool :=
  32 ≤ c.toNat && !isBlank c && !signs.contains c

def isWordStart (c : Char) : Bool := isWordChar c && !c.isDigit

def isHexDigit (c : Char) : Bool :=
  c.isDigit || ('a' ≤ c && c ≤ 'f') || ('A' ≤ c && c ≤ 'F')

/-- The length of an escaped character of a word. -/
def wordEscape : List Char → Option Nat
  | '\\' :: 'u' :: '\x7b' :: cs =>
    let digits := (cs.takeWhile isHexDigit).length
    match cs.drop digits with
    | '\x7d' :: _ => if digits = 0 then none else some (digits + 4)
    | _ => none
  | '\\' :: 'u' :: a :: b :: c :: d :: _ =>
    if [a, b, c, d].all isHexDigit then some 6 else none
  | _ => none

/-- The length of what continues a word. -/
def wordTail : List Char → Nat
  | [] => 0
  | c :: cs =>
    if isWordChar c then 1 + wordTail cs
    else
      match wordEscape (c :: cs) with
      | some n => n + wordTail (cs.drop (n - 1))
      | none => 0
  termination_by cs => cs.length

def wordLength (cs : List Char) : Nat :=
  match cs with
  | [] => 0
  | c :: _ =>
    if isWordStart c || (c == '\\' && (wordEscape cs).isSome) then wordTail cs else 0

/-- Words that name nothing. -/
def reservedWords : List String :=
  ["break", "case", "catch", "class", "const", "continue", "debugger", "default", "delete", "do",
    "else", "export", "extends", "false", "finally", "for", "function", "if", "import", "in",
    "instanceof", "new", "null", "return", "super", "switch", "this", "throw", "true", "try",
    "typeof", "var", "void", "while", "with"]

/-- Punctuation; of two signs with a common beginning the longer comes
first. -/
def symbols : List (List Char) :=
  [">>>=", "...", "===", "!==", "**=", "<<=", ">>=", ">>>", "&&=", "||=", "??=", "=>", "==", "!=",
    "<=", ">=", "&&", "||", "??", "?.", "++", "--", "+=", "-=", "*=", "/=", "%=", "&=", "|=", "^=",
    "<<", ">>", "**", "\x7b", "\x7d", "(", ")", "[", "]", ";", ",", "<", ">", "+", "-", "*", "/",
    "%", "&", "|", "^", "!", "~", "?", ":", "=", ".", "@", "#"].map String.toList

/-- The punctuation to come. A question mark before a decimal fraction stands
alone. -/
def symbol? (cs : List Char) : Option (List Char) :=
  match cs with
  | '?' :: '.' :: d :: _ =>
    if d.isDigit then some ['?'] else some ['?', '.']
  | cs => symbols.find? fun s => s.isPrefixOf cs

def isDigitOrBar (c : Char) : Bool := c.isDigit || c == '_'

def isHexOrBar (c : Char) : Bool := isHexDigit c || c == '_'

def exponentLength (cs : List Char) : Nat :=
  match cs with
  | e :: sign :: d :: _ =>
    if e == 'e' || e == 'E' then
      if sign.isDigit then 1 + ((cs.drop 1).takeWhile isDigitOrBar).length
      else if (sign == '+' || sign == '-') && d.isDigit then
        2 + ((cs.drop 2).takeWhile isDigitOrBar).length
      else 0
    else 0
  | [e, d] => if (e == 'e' || e == 'E') && d.isDigit then 2 else 0
  | _ => 0

def numberLength (cs : List Char) : Nat :=
  match cs with
  | '0' :: x :: rest =>
    if ['x', 'X', 'o', 'O', 'b', 'B'].contains x then
      let n := 2 + (rest.takeWhile isHexOrBar).length
      if (cs.drop n).head? == some 'n' then n + 1 else n
    else decimal cs
  | cs => decimal cs
where
  decimal (cs : List Char) : Nat :=
    let whole := (cs.takeWhile isDigitOrBar).length
    let after := cs.drop whole
    if whole = 0 && !(after.head? == some '.' && ((after.drop 1).head?.map Char.isDigit) == some true)
    then 0
    else if after.head? == some 'n' then whole + 1
    else
      let point := if after.head? == some '.' then
          1 + ((after.drop 1).takeWhile isDigitOrBar).length
        else 0
      whole + point + exponentLength (after.drop point)

/-- The length of a string behind its opening quote, the closing one counted. A
line may end in a string only behind a backslash. -/
def stringTail (quote : Char) : List Char → Option Nat
  | [] => none
  | '\\' :: '\r' :: '\n' :: cs => (stringTail quote cs).map (· + 3)
  | '\\' :: _ :: cs => (stringTail quote cs).map (· + 2)
  | c :: cs =>
    if c == quote then some 1
    else if c == '\n' || c == '\r' then none
    else (stringTail quote cs).map (· + 1)

/-- The length of a regular expression behind its opening slash, with the
closing one and the flags. A slash in brackets does not close it. -/
def regexTail (inSet : Bool) : List Char → Option Nat
  | [] => none
  | '\\' :: c :: cs => if c == '\n' then none else (regexTail inSet cs).map (· + 2)
  | c :: cs =>
    if c == '\n' then none
    else if inSet then (regexTail (c != ']') cs).map (· + 1)
    else if c == '[' then (regexTail true cs).map (· + 1)
    else if c == '/' then some (1 + (cs.takeWhile Char.isAlpha).length)
    else (regexTail false cs).map (· + 1)

/-- The length of the text of a template up to its end or the next
substitution. -/
def templateText : List Char → Nat
  | [] => 0
  | '\\' :: _ :: cs => templateText cs + 2
  | '$' :: '\x7b' :: _ => 0
  | c :: cs => if c == accent then 0 else templateText cs + 1

end ThrowCatch.Source
