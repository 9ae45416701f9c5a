import ThrowCatch.Language
import ThrowCatch.Sites.Basic
import ThrowCatch.Sites.Supertype
import ThrowCatch.Tree.Node

/-!
Error types declared at the top of a file. Only classes that stand there
directly or right under an export count; what such a class extends is read off
its text.
-/

namespace ThrowCatch.Sites

def anonymousName : String := "AnonymousError"

/-- The classes at the top of a tree. A class expression counts only under an
export. -/
def topClasses (language : Language) (root : Node) : List Node :=
  root.namedChildren.flatMap fun child =>
    if language.classKinds.contains child.kind && child.kind != "class" then [child]
    else if child.kind == "export_statement" then
      child.namedChildren.filter fun c => language.classKinds.contains c.kind
    else []

/-- The node whose text names what a class extends. Where the clause has a
node of its own that one is taken, and a class that only implements
interfaces extends nothing. -/
def extendsNode? (heritage : Node) : Option Node :=
  match heritage.namedChildren.find? fun c => c.kind == "extends_clause" with
  | some clause => some clause
  | none =>
    if heritage.namedChildren.any fun c => c.kind == "implements_clause" then none
    else some heritage

def clauseTarget (text : String) : String :=
  let text := Text.trim text
  Text.trim (if Text.startsWith "extends" text then Text.drop 7 text else text)

def supertype? (source : ByteArray) (classNode : Node) : Option String :=
  (classNode.namedChildren.find? fun c => c.kind == "class_heritage").bind fun heritage =>
    (extendsNode? heritage).bind fun clause =>
      let target := clauseTarget (clause.text source)
      if target == "" then none else some target

/-- The declaration a class makes, when its supertype marks an error type.
`accepts` tells which supertypes do, as far as it can tell. -/
def declaration? (accepts : String → Except Fault Bool) (source : ByteArray) (file : String)
    (classNode : Node) : Except Fault (Option Declaration) :=
  match supertype? source classNode with
  | none => pure none
  | some supertype => do
    if ← accepts supertype then
      let name := match classNode.child? "name" with
        | some n => n.text source
        | none => anonymousName
      pure (some ⟨name, supertype, ⟨file, classNode.line⟩⟩)
    else pure none

def declared (accepts : String → Except Fault Bool) (language : Language) (source : ByteArray)
    (file : String) (root : Node) : Except Fault (List Declaration) :=
  (topClasses language root).filterMapM (declaration? accepts source file)

end ThrowCatch.Sites
