import Dataflow.Graph.Node
import Dataflow.Scope

/-! The questions that can be asked about a graph, and what answers each of them has. -/

namespace Dataflow

inductive Query where
  | node (id : NodeId)
  /-- The element that an iterator is bound to. -/
  | bound (id : NodeId) (scope : Scope)
  | connectionsInto (id : NodeId) (key : String)
  | connectionsFrom (id : NodeId) (key : String)
  /-- The ports that a node shows; none if there is no such node. -/
  | ports (id : NodeId)
  | value (id : NodeId) (scope : Scope) (key : String)
  /-- The type that a node produces by itself. -/
  | outputType (id : NodeId) (key : String) (context : Context)
  /-- The produced type, reconciled with those who consume it. -/
  | deliveredType (id : NodeId) (key : String) (context : Context)
  /-- The type that a node demands at a key. -/
  | expectedType (id : NodeId) (key : String) (context : Context)
  /-- The value that stands for a missing one. -/
  | emptyValue (type : ValueType)
  /-- Continues a search for open iterators at a node: the nodes seen, and the iterators found. -/
  | visit (id : NodeId) (scope : Scope) (seen : NodeSet) (found : List NodeId)
  /-- The elements that an iterator runs over, and the nodes that were read for them. -/
  | elements (iterator : Node) (scope : Scope)
  /-- How many combinations of elements a collector may have. -/
  | limit

namespace Query

abbrev Answer : Query → Type
  | node _ => Option Node
  | bound _ _ => Option Local
  | connectionsInto _ _ => List Connection
  | connectionsFrom _ _ => List Connection
  | ports _ => Option (List Port)
  | value _ _ _ => Value
  | outputType _ _ _ => ValueType
  | deliveredType _ _ _ => ValueType
  | expectedType _ _ _ => ValueType
  | emptyValue _ => Value
  | visit _ _ _ _ => NodeSet × List NodeId
  | elements _ _ => List Value × NodeSet
  | limit => Nat

/-- An answer that says nothing, for a question that is never answered. -/
def silence : (q : Query) → q.Answer
  | node _ => none
  | bound _ _ => none
  | connectionsInto _ _ => []
  | connectionsFrom _ _ => []
  | ports _ => none
  | value _ _ _ => .nothing
  | outputType _ _ _ => .unresolved
  | deliveredType _ _ _ => .unresolved
  | expectedType _ _ _ => .unresolved
  | emptyValue _ => .nothing
  | visit _ _ seen found => (seen, found)
  | elements _ _ => ([], ∅)
  | limit => 0

end Query

end Dataflow
