import Dataflow.Graph.Port
import Dataflow.Graph.Node
import Dataflow.ValueType.Printer

/-! Why an edit or a query fails. -/

namespace Dataflow

/-- Which bound on the connections of a port would be passed. -/
inductive Cardinality where
  | manyToMany
  | occupied (dest : PortRef)
  | exhausted (src : PortRef)
  deriving DecidableEq, Repr

def Cardinality.message : Cardinality → String
  | manyToMany => "multiple source into multiple destination"
  | occupied dest => s!"{dest} is already connected"
  | exhausted src => s!"{src} already feeds a connection"

/-- Why two ports may not be joined. -/
inductive Rejection where
  | samePort
  | sameNode
  | incompatibleRoles (src dest : PortRole)
  | missingPort (port : PortRef)
  | cardinality (c : Cardinality)
  | typeMismatch (src : PortRef) (delivered : ValueType) (dest : PortRef) (expected : ValueType)
  | cycle
  deriving DecidableEq, Repr

/-- What is delivered at one end and expected at the other. -/
def disagreement (src : PortRef) (delivered : ValueType) (dest : PortRef) (expected : ValueType) :
    String :=
  s!"{src} delivers {delivered}, {dest} expects {expected}"

def Rejection.message : Rejection → String
  | samePort => "a port cannot connect to itself"
  | sameNode => "both ports belong to the same node"
  | incompatibleRoles src dest => s!"cannot connect {src} to {dest}"
  | missingPort port => s!"port {port} does not exist"
  | cardinality c => "cardinality: " ++ c.message
  | typeMismatch src delivered dest expected =>
    "type mismatch: " ++ disagreement src delivered dest expected
  | cycle => "connection would close a cycle"

/-- What is wrong with a parameter. -/
inductive ParamFault where
  | unknown
  | wrongKind (expected actual : ParamKind)
  deriving DecidableEq, Repr

def ParamFault.message : ParamFault → String
  | unknown => "unknown parameter"
  | wrongKind expected actual => s!"expected {expected}, got {actual}"

inductive GraphError where
  | nodeNotFound (id : NodeId)
  | portNotFound (node : NodeId) (key : String) (role : PortRole)
  | connectionNotFound (id : ConnectionId)
  | invalidConnection (r : Rejection)
  | invalidParam (type key : String) (fault : ParamFault)
  deriving DecidableEq, Repr

namespace GraphError

def message : GraphError → String
  | nodeNotFound id => s!"node {id} does not exist"
  | portNotFound node key role => s!"node {node} has no {role} port '{key}'"
  | connectionNotFound id => s!"connection {id} does not exist"
  | invalidConnection r => "invalid connection: " ++ r.message
  | invalidParam type key fault => s!"invalid parameter '{key}' on {type}: " ++ fault.message

end GraphError

end Dataflow
