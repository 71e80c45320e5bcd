import Dataflow.Graph.Basic

/-! The nodes that lie before and after others along the connections, found round by round
(`spread`). -/

namespace Dataflow.Graph

/-- Goes on from the nodes of `fresh`, one connection further in each round. Each node is fresh
once. -/
def spread (next : NodeId → List NodeId) : (rounds : Nat) → (seen fresh : NodeSet) → NodeSet
  | 0, seen, _ => seen
  | rounds + 1, seen, fresh =>
    if fresh.isEmpty then seen
    else
      let seen := seen ∪ fresh
      let reached := NodeSet.ofList (fresh.toList.flatMap next)
      spread next rounds seen (reached.filter fun id => !seen.contains id)

/-- A shortest way to a node uses no connection twice. -/
def rounds (g : Graph) : Nat := g.connections.size + 1

/-- The start nodes and all that feed them, directly or through others: spreading along `suppliers`.
-/
def upstream (g : Graph) (start : List NodeId) : NodeSet :=
  spread g.suppliers g.rounds ∅ (.ofList start)

/-- The start nodes and all that they feed, directly or through others: spreading along `consumers`.
-/
def downstream (g : Graph) (start : List NodeId) : NodeSet :=
  spread g.consumers g.rounds ∅ (.ofList start)

end Dataflow.Graph
