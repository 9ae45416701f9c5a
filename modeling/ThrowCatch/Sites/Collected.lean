import ThrowCatch.Language
import ThrowCatch.Sites.Basic
import ThrowCatch.Text.Blank
import ThrowCatch.Tree.Occurrence

/-!
Raise and intercept sites of a file.

A throw of a construction raises what is constructed, a throw of a bare name
raises an error at hand again, and any other throw is counted without a name.
A catch clause intercepts the types that its body tests its variable against.
A test belongs to the nearest enclosing clause that binds the tested name; a
clause without a test of its own intercepts the declared type of its variable.
-/

namespace ThrowCatch.Sites

/-- The first child that is neither punctuation nor a comment. -/
def firstExpression? (n : Node) : Option Node :=
  n.namedChildren.find? fun c => !c.isComment

mutual

/-- The expression inside any number of parentheses, none when the innermost
are empty. -/
def unwrap : Node → Option Node
  | n@⟨kind, _, _, _, _, _, children⟩ =>
    if kind == "parenthesized_expression" then unwrapFirst children else some n

def unwrapFirst : List Node → Option Node
  | [] => none
  | c :: cs => if c.named && !c.isComment then unwrap c else unwrapFirst cs

end

def raiseSite? (source : ByteArray) (file : String) (statement : Node) : Option Site :=
  ((firstExpression? statement).bind unwrap).bind fun e =>
    let location : Location := ⟨file, statement.line⟩
    if e.kind == "new_expression" then
      let name := Text.trim (((e.child? "constructor").map (·.text source)).getD "")
      if name == "" then none else some ⟨name, .raised, location⟩
    else if e.kind == "identifier" then some ⟨e.text source, .reraised, location⟩
    else none

def boundName? (source : ByteArray) (clause : Node) : Option String :=
  match clause.child? "parameter" with
  | some p => if p.kind == "identifier" then some (p.text source) else none
  | none => none

def testedType? (source : ByteArray) (name : String) (test : Node) : Option String :=
  match test.child? "operator" with
  | none => none
  | some operator =>
    if operator.kind != "instanceof" then none
    else
      match (test.child? "left").bind unwrap with
      | none => none
      | some left =>
        if left.kind != "identifier" || left.text source != name then none
        else
          let target := Text.trim (((test.child? "right").map (·.text source)).getD "")
          if target == "" then none else some target

def bindingClause? (source : ByteArray) (name : String) (o : Occurrence) : Option Node :=
  o.above.find? fun n => n.kind == "catch_clause" && boundName? source n == some name

/-- The type that a place tests a clause's variable against, when the test
belongs to that clause. -/
def ownedType? (source : ByteArray) (name : String) (clause : Node) (o : Occurrence) :
    Option String :=
  (testedType? source name o.node).bind fun target =>
    match bindingClause? source name o with
    | some owner => if owner.sameSpan clause then some target else none
    | none => none

def distinct (names : List String) : List String :=
  names.foldl (fun seen n => if seen.contains n then seen else seen ++ [n]) []

def testedTypes (source : ByteArray) (clause : Occurrence) : List String :=
  match boundName? source clause.node, clause.child? "body" with
  | some name, some body =>
    distinct ((body.ofKind Search.typeTests.nodeKind).filterMap
      (ownedType? source name clause.node))
  | _, _ => []

/-- The declared type of a clause's variable, or `implicit` without one. -/
def declaredType (source : ByteArray) (implicit : String) (clause : Node) : String :=
  match clause.child? "type" with
  | none => implicit
  | some typeNode =>
    let inner := typeNode.namedChildren.head?.getD typeNode
    let text := Text.trim (String.ofList ((inner.text source).toList.dropWhile (· == ':')))
    if text == "" then implicit else text

/-- The sites of a catch clause: one for each type tested, or one for the
declared type. -/
def interceptSites (source : ByteArray) (implicit file : String) (clause : Occurrence) :
    List Site :=
  let location : Location := ⟨file, clause.node.line⟩
  let names := match testedTypes source clause with
    | [] => [declaredType source implicit clause.node]
    | names => names
  names.map fun name => ⟨name, .intercepted, location⟩

structure Collected where
  raised : List Site
  intercepted : List Site
  unclassified : Nat
  deriving DecidableEq, Repr

/-- All sites of a tree, by where they start. -/
def collect (source : ByteArray) (implicit file : String) (root : Node) : Collected :=
  let throws := (Occurrence.root root).ofKind Search.throws.nodeKind
  let raises := throws.map fun o => raiseSite? source file o.node
  let clauses := (Occurrence.root root).ofKind Search.catches.nodeKind
  { raised := raises.filterMap id
    intercepted := clauses.flatMap (interceptSites source implicit file)
    unclassified := (raises.filter Option.isNone).length }

end ThrowCatch.Sites
