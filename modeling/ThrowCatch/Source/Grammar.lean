import ThrowCatch.Index
import ThrowCatch.Source.Module

/-!
Source texts to syntax trees. The parts of the grammar call each other through
goals; each call costs a unit of fuel, and since only a few calls happen before
a character is passed, fuel in proportion to the length of the text is enough.
-/

namespace ThrowCatch.Source

/-- Reads what a goal asks for. -/
def produce (r : Rules) : Goal → Parser Node
  | .statement => statement r
  | .block => block r
  | .expression m => expression r m
  | .assignment m => assignment r m
  | .operand whole => operand r whole
  | .chain => chain r true
  | .creation => creation r
  | .binding => binding r
  | .type => typeExpression r
  | .element => element r

def read (l : Language) : Nat → Goal → Parser Node
  | 0, _ => failure
  | fuel + 1, goal => produce ⟨l, read l fuel⟩ goal

/-- The tree of a text, when it is well formed. -/
def parse? (l : Language) (text : String) : Option Node :=
  let size := text.length
  ((file ⟨l, read l (64 * (size + 1))⟩ |>.run size).run (Cursor.start text)).map (·.1)

/-- The tree of a text that is not well formed holds nothing. -/
def emptyTree (size : Nat) : Node := ⟨"program", true, none, 0, size, 0, []⟩

def grammar (l : Language) (bytes : ByteArray) : Parse :=
  let text := Text.decode bytes.toList
  let source := text.toUTF8
  match parse? l text with
  | some root => ⟨source, root, false⟩
  | none => ⟨source, emptyTree source.size, true⟩

end ThrowCatch.Source
