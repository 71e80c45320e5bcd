import Dataflow.Graph.Basic

/-! A graph as plain lists, at one version. -/

namespace Dataflow

structure Snapshot where
  name : String
  version : Nat
  nodes : List Node
  connections : List Connection
  deriving DecidableEq

namespace Snapshot

def capture (name : String) (version : Nat) (g : Graph) : Snapshot :=
  ⟨name, version, g.nodeList, g.connectionList⟩

def toGraph (s : Snapshot) : Graph := .ofParts s.nodes s.connections

/-- Equality of parameters in which numbers are compared as numbers. -/
def paramsAgree (p q : Params) : Bool :=
  p.size == q.size &&
    (p.toList.zip q.toList).all fun ((k, v), (l, w)) => k == l && v.agrees w

def nodesAgree (m n : Node) : Bool :=
  m.id == n.id && m.module == n.module && m.type == n.type && m.ports == n.ports &&
    paramsAgree m.params n.params

/-- Equality in which numbers are compared as numbers. -/
def agrees (s t : Snapshot) : Bool :=
  s.name == t.name && s.version == t.version && s.connections == t.connections &&
    s.nodes.length == t.nodes.length && (s.nodes.zip t.nodes).all fun (m, n) => nodesAgree m n

end Snapshot

end Dataflow
