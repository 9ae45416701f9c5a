import ThrowCatch.Text.Printable
import ThrowCatch.Text.Search

/-!
Quoted texts, as messages show them: single quotes, unless the text holds a
single quote and no double one.
-/

namespace ThrowCatch.Text

/-- The last `width` hexadecimal digits of a number. -/
def hex (width n : Nat) : List Char :=
  let digits := Nat.toDigits 16 n
  List.replicate (width - digits.length) '0' ++ digits

def escapeChar (quote c : Char) : List Char :=
  if c == quote || c == '\\' then ['\\', c]
  else if c == '\n' then ['\\', 'n']
  else if c == '\r' then ['\\', 'r']
  else if c == '\t' then ['\\', 't']
  else if isPrintable c then [c]
  else if c.toNat < 0x100 then '\\' :: 'x' :: hex 2 c.toNat
  else if c.toNat < 0x10000 then '\\' :: 'u' :: hex 4 c.toNat
  else '\\' :: 'U' :: hex 8 c.toNat

def quoteFor (cs : List Char) : Char :=
  if cs.contains (Char.ofNat 39) && !cs.contains '"' then '"' else Char.ofNat 39

/-- The text between quotes, with what cannot be shown escaped. -/
def quoted (s : String) : String :=
  let q := quoteFor s.toList
  String.ofList (q :: (s.toList.flatMap (escapeChar q) ++ [q]))

end ThrowCatch.Text
