/-!
Searching in texts, by characters and case-sensitively.
-/

namespace ThrowCatch.Text

/-- Whether the first list occurs in the second as a block of neighbours. -/
def occursIn (needle : List Char) : List Char → Bool
  | [] => needle.isEmpty
  | c :: cs => needle.isPrefixOf (c :: cs) || occursIn needle cs

/-- Whether `needle` occurs somewhere in `hay`. The empty text occurs in every
text. -/
def contains (needle hay : String) : Bool :=
  occursIn needle.toList hay.toList

def startsWith (head s : String) : Bool :=
  head.toList.isPrefixOf s.toList

def endsWith (tail s : String) : Bool :=
  tail.toList.isSuffixOf s.toList

/-- The text after its first `n` characters. -/
def drop (n : Nat) (s : String) : String :=
  String.ofList (s.toList.drop n)

/-- The text without its last `n` characters. -/
def dropEnd (n : Nat) (s : String) : String :=
  String.ofList (s.toList.take (s.toList.length - n))

/-- Cuts a list at every separator. There is always at least one piece. -/
def splitAt (separator : Char) : List Char → List (List Char)
  | [] => [[]]
  | c :: cs =>
    if c == separator then [] :: splitAt separator cs
    else match splitAt separator cs with
      | [] => [[c]]
      | piece :: pieces => (c :: piece) :: pieces

/-- The pieces of a text between the separators. -/
def pieces (separator : Char) (s : String) : List String :=
  (splitAt separator s.toList).map String.ofList

/-- The texts with `separator` between each two neighbours. -/
def join (separator : String) (parts : List String) : String :=
  String.intercalate separator parts

def repeatChar (c : Char) (n : Nat) : String :=
  String.ofList (List.replicate n c)

end ThrowCatch.Text
