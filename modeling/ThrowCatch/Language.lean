import ThrowCatch.Disk.Path
import ThrowCatch.Text.Lower

/-!
The languages that can be analysed, how a file's language is told from its
name, and the kinds of syntax nodes the analysis asks for in each.
-/

namespace ThrowCatch

inductive Language
  | typescript | tsx | javascript
  deriving DecidableEq, Repr

namespace Language

def name : Language → String
  | .typescript => "typescript"
  | .tsx => "tsx"
  | .javascript => "javascript"

def ofName? (s : String) : Option Language :=
  [typescript, tsx, javascript].find? fun l => l.name == s

/-- The extensions and their languages. -/
def extensions : List (String × Language) :=
  [(".cjs", javascript), (".cts", typescript), (".js", javascript), (".jsx", javascript),
    (".mjs", javascript), (".mts", typescript), (".ts", typescript), (".tsx", tsx)]

/-- The language of a file, by its suffix in lower case. -/
def ofPath? (p : Path) : Option Language :=
  let suffix := Text.lower p.suffix
  (extensions.find? fun (e, _) => e == suffix).map (·.2)

def isTyped : Language → Bool
  | .typescript => true
  | .tsx => true
  | .javascript => false

/-- Nodes that declare a class. -/
def classKinds (l : Language) : List String :=
  if l.isTyped then ["class_declaration", "abstract_class_declaration", "class"]
  else ["class_declaration", "class"]

end Language

/-- What a tree can be searched for. -/
inductive Search
  | throws | catches | typeTests
  deriving DecidableEq, Repr

namespace Search

def all : List Search := [throws, catches, typeTests]

def name : Search → String
  | .throws => "throw"
  | .catches => "catch"
  | .typeTests => "type_test"

def ofName? (s : String) : Option Search := all.find? fun q => q.name == s

/-- The kind of node that is looked for. -/
def nodeKind : Search → String
  | .throws => "throw_statement"
  | .catches => "catch_clause"
  | .typeTests => "binary_expression"

/-- The name that a node found is given. -/
def capture : Search → String
  | .throws => "throw"
  | .catches => "catch"
  | .typeTests => "test"

/-- The search as a tree query. -/
def query (q : Search) : String :=
  "\n(" ++ q.nodeKind ++ ") @" ++ q.capture ++ "\n"

end Search

end ThrowCatch
