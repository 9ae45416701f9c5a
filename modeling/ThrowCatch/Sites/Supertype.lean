import ThrowCatch.Fault
import ThrowCatch.Text.Blank
import ThrowCatch.Text.Search

/-!
Deciding from the text of a supertype whether a class is an error type. No
type is resolved: the text alone decides, under one of two policies.
-/

namespace ThrowCatch

inductive MatchPolicy
  | substring | exact
  deriving DecidableEq, Repr

/-- The names that mark an error type, and how they are looked for. The names
are kept as they were given, so that some may be no texts. -/
structure Matcher where
  policy : MatchPolicy
  names : List Value
  deriving Repr

namespace Supertype

def afterLast? (c : Char) (cs : List Char) : Option (List Char) :=
  if cs.contains c then some (cs.reverse.takeWhile (· != c)).reverse else none

/-- Takes out the type arguments: from the first `<` to the last `>` after
it. -/
def withoutArguments (cs : List Char) : List Char :=
  match cs.dropWhile (· != '<') with
  | [] => cs
  | _ :: rest =>
    match afterLast? '>' rest with
    | some tail => cs.takeWhile (· != '<') ++ tail
    | none => cs

def afterDot (cs : List Char) : List Char :=
  (cs.reverse.takeWhile (· != '.')).reverse

/-- The bare name of a supertype, without qualifier and type arguments. -/
def bareName (supertype : String) : String :=
  String.ofList (afterDot (Text.trimRight (Text.trimLeft (withoutArguments supertype.toList))))

/-- Whether a supertype holds a name. A name that is no text cannot be looked
for in one. -/
def holds (supertype : String) : Value → Except Fault Bool
  | .str name => .ok (Text.contains name supertype)
  | v => .error (.notWithin v.kindName)

end Supertype

namespace Matcher

def ofTexts (policy : MatchPolicy) (names : List String) : Matcher := ⟨policy, names.map .str⟩

/-- A matcher of any names. Lists and tables cannot be members of the set that
the exact policy looks its names up in. -/
def ofMembers (policy : MatchPolicy) (names : List Value) : Except Fault Matcher :=
  match policy, names.find? fun v => !v.isHashable with
  | .exact, some v => .error (.unhashable v.kindName)
  | _, _ => .ok ⟨policy, names⟩

/-- Whether a supertype marks an error type. Under the substring policy the
names are tried one after the other up to the first that is held. -/
def accepts (m : Matcher) (supertype : String) : Except Fault Bool :=
  match m.policy with
  | .substring => m.names.anyM (Supertype.holds supertype)
  | .exact => .ok (m.names.any (Value.isText (Supertype.bareName supertype)))

end Matcher

end ThrowCatch
