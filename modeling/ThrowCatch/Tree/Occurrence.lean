import ThrowCatch.Tree.Node

/-!
Places in a tree. An occurrence is a node together with the nodes above it,
so that a question about the surroundings of a node is answered from the
occurrence alone.
-/

namespace ThrowCatch

structure Occurrence where
  node : Node
  /-- The enclosing nodes, the nearest first. -/
  above : List Node

namespace Occurrence

mutual

/-- All occurrences of a subtree, each before those below it. -/
def preorderFrom (above : List Node) : Node → List Occurrence
  | n@⟨_, _, _, _, _, _, children⟩ => ⟨n, above⟩ :: preorderList (n :: above) children

def preorderList (above : List Node) : List Node → List Occurrence
  | [] => []
  | c :: cs => preorderFrom above c ++ preorderList above cs

end

/-- The occurrences at and below a place. -/
def below (o : Occurrence) : List Occurrence := preorderFrom o.above o.node

def root (n : Node) : Occurrence := ⟨n, []⟩

/-- The occurrence of the first child that fills a field. -/
def child? (o : Occurrence) (field : String) : Option Occurrence :=
  (o.node.child? field).map fun c => ⟨c, o.node :: o.above⟩

/-- The places of a kind at and below a place, by where they start; an outer
node comes before an inner one that starts with it. -/
def ofKind (kind : String) (o : Occurrence) : List Occurrence :=
  (o.below.filter fun x => x.node.kind == kind).mergeSort
    fun a b => a.node.start ≤ b.node.start

end Occurrence

end ThrowCatch
