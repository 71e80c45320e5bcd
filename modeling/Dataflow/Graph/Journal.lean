import Dataflow.Graph.Basic

/-! Taking changes back.

Each change has an inverse (`Undo`), and a journal holds the inverses in the order of the changes.
Replaying it from the end, and setting back the counters to those of a `Checkpoint`, gives the graph
from before the first change. -/

namespace Dataflow

/-- The inverse of a change. -/
inductive Undo where
  | addedNode (id : NodeId)
  | removedNode (node : Node) (connections : List Connection)
  | addedConnection (id : ConnectionId)
  | removedConnection (c : Connection)
  | setParam (node : NodeId) (key : String) (previous : Option ParamValue)
  deriving DecidableEq

/-- The counters of a graph at some moment. -/
structure Checkpoint where
  nextNode : Nat
  nextConnection : Nat
  generation : Nat
  deriving DecidableEq, Repr, Inhabited

namespace Graph

def checkpoint (g : Graph) : Checkpoint := ⟨g.nextNode, g.nextConnection, g.generation⟩

/-- Puts a connection back under its own number. -/
def restore (g : Graph) (c : Connection) : Graph :=
  { g with
    connections := g.connections.insert c.id c
    incidence := g.incidence.attach c }

def undo (g : Graph) : Undo → Graph
  | .addedNode id =>
    { g with nodes := g.nodes.erase id, incidence := g.incidence.eraseNode id }
  | .removedNode node connections =>
    connections.foldl restore { g with nodes := g.nodes.insert node.id node }
  | .addedConnection id =>
    match g.connection? id with
    | none => g
    | some c => { g with
        connections := g.connections.erase id
        incidence := g.incidence.detach c }
  | .removedConnection c => g.restore c
  | .setParam id key previous =>
    match g.node? id with
    | none => g
    | some n =>
      let params := match previous with
        | some value => n.params.insert key value
        | none => n.params.erase key
      { g with nodes := g.nodes.insert id { n with params } }

/-- Takes back the changes of a journal, the last one first. -/
def rollback (g : Graph) (c : Checkpoint) (journal : List Undo) : Graph :=
  { journal.foldr (fun u g => g.undo u) g with
    nextNode := c.nextNode
    nextConnection := c.nextConnection
    generation := c.generation }

end Graph

end Dataflow
