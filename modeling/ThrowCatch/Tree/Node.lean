import ThrowCatch.Text.Utf8

/-!
Concrete syntax trees. A node has a kind, a place in the file given by byte
offsets and the row it starts in, and the name of the field it fills in its
parent. Trees are ordered; nothing is known about the offsets of children.
-/

namespace ThrowCatch

structure Node where
  kind : String
  named : Bool
  field : Option String
  start : Nat
  stop : Nat
  row : Nat
  children : List Node
  deriving Repr, Inhabited

namespace Node

/-- The children that are more than punctuation and keywords. -/
def namedChildren (n : Node) : List Node :=
  n.children.filter (·.named)

def child? (n : Node) (field : String) : Option Node :=
  n.children.find? fun c => c.field == some field

/-- The line a node starts in, counted from one. -/
def line (n : Node) : Nat := n.row + 1

/-- Two nodes are taken for the same one when they cover the same bytes. -/
def sameSpan (a b : Node) : Bool :=
  a.start == b.start && a.stop == b.stop

def text (source : ByteArray) (n : Node) : String :=
  Text.decode (source.extract n.start n.stop).toList

def isComment (n : Node) : Bool := n.kind == "comment"

def withField (field : String) (n : Node) : Node :=
  { n with field := some field }

end Node

/-- A preorder listing is one entry per node: its depth and the node without
children. -/
structure Listed where
  depth : Nat
  node : Node

namespace Node

/-- Puts a node into an open branch. `branch` holds the open nodes from the
deepest to the root with their depths, children in reverse order; closing a
node hands it to the one above it. -/
def close : Nat → List Listed → List Listed
  | _, [] => []
  | _, [root] => [root]
  | depth, top :: below :: rest =>
    if top.depth < depth then top :: below :: rest
    else
      let done := { top.node with children := top.node.children.reverse }
      close depth
        (⟨below.depth, { below.node with children := done :: below.node.children }⟩ :: rest)
  termination_by _ branch => branch.length

def ofListing? (entries : List Listed) : Option Node :=
  let branch := entries.foldl
    (fun branch e => ⟨e.depth, { e.node with children := [] }⟩ :: close e.depth branch) []
  match close 1 branch with
  | [root] => some { root.node with children := root.node.children.reverse }
  | _ => none

end Node

end ThrowCatch
