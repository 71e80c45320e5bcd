import Dataflow.Graph.Basic

/-! Producers before consumers.

A depth-first walk lists each node after all that it feeds (`walk`); backwards this is an order
unless there is a cycle, and whether it is one is checked afterwards (`backward?`). -/

namespace Dataflow.Graph

/-- A pair of joined nodes, producer first. -/
abbrev Edge := NodeId × NodeId

/-- The pairs of joined nodes in the order of the connections, each once. -/
def edges (g : Graph) : List Edge :=
  (g.connectionList.map fun c => (c.src.node, c.dest.node)).foldl
    (fun es e => if e ∈ es then es else es ++ [e]) []

/-- The nodes of the graph, and after them nodes that only connections name. -/
def vertices (g : Graph) : List NodeId :=
  (g.edges.flatMap fun (a, b) => [a, b]).foldl
    (fun vs v => if v ∈ vs then vs else vs ++ [v]) (g.nodeList.map (·.id))

def successors (es : List Edge) (v : NodeId) : List NodeId :=
  (es.filter (·.1 = v)).map (·.2)

def predecessors (es : List Edge) (v : NodeId) : List NodeId :=
  (es.filter (·.2 = v)).map (·.1)

/-- The state of a walk: the nodes `met` so far, and those `done` with, the last one first. -/
structure Walk where
  met : List NodeId
  done : List NodeId
  deriving DecidableEq, Repr

/-- Walks on from a node, the successor that was joined last coming first. A node that feeds itself
ends the walk. The depth of a walk is at most the number of nodes. -/
def walk (es : List Edge) : (depth : Nat) → NodeId → Walk → Except NodeId Walk
  | 0, _, w => .ok w
  | depth + 1, v, w =>
    if v ∈ w.met then .ok w
    else if v ∈ successors es v then .error v
    else do
      let ahead := (successors es v).filter fun s => s ≠ v ∧ s ∉ w.met
      let w ← ahead.reverse.foldlM (fun w s => walk es depth s w) { w with met := v :: w.met }
      return { w with done := v :: w.done }

/-- The node that shows that a list is no order: among the producers of the first node that comes
before one of its producers, the one that was joined last. -/
def backward? (es : List Edge) : (earlier : List NodeId) → List NodeId → Option NodeId
  | _, [] => none
  | earlier, v :: vs =>
    match ((predecessors es v).filter fun p => p ≠ v ∧ p ∉ earlier).getLast? with
    | some p => some p
    | none => backward? es (v :: earlier) vs

/-- An order of the nodes in which producers come first, or a node at which a cycle was found: one
that feeds itself, or what `backward?` finds. -/
def topologicalOrder (g : Graph) : Except NodeId (List NodeId) := do
  let es := g.edges
  let vs := g.vertices
  let w ← vs.foldlM (fun w v => walk es vs.length v w) ⟨[], []⟩
  match backward? es [] w.done with
  | some p => .error p
  | none => .ok w.done

/-! ## Cycles -/

/-- Looks for a way back to a node of `path`; the nodes that turned out free of one are returned. -/
def findBack (es : List Edge) : (depth : Nat) → (path : List NodeId) → (free : List NodeId) →
    NodeId → Except NodeId (List NodeId)
  | 0, _, free, _ => .ok free
  | depth + 1, path, free, v =>
    if v ∈ path then .error v
    else if v ∈ free then .ok free
    else do
      let free ← (successors es v).foldlM (findBack es depth (v :: path)) free
      return v :: free

def isCyclic (g : Graph) : Bool :=
  let vs := g.vertices
  match vs.foldlM (findBack g.edges (vs.length + 1) []) [] with
  | .ok _ => false
  | .error _ => true

end Dataflow.Graph
