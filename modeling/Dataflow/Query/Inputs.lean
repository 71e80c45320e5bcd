import Dataflow.Graph.Error
import Dataflow.Query.Plan

/-! Plans for what reaches a node through its ports. -/

namespace Dataflow.Plan

def node? (id : NodeId) : Plan (Option Node) := query (.node id)

def connectionsInto (id : NodeId) (key : String) : Plan (List Connection) :=
  query (.connectionsInto id key)

def connectionsFrom (id : NodeId) (key : String) : Plan (List Connection) :=
  query (.connectionsFrom id key)

def value (id : NodeId) (scope : Scope) (key : String) : Plan Value := query (.value id scope key)

def outputType (id : NodeId) (key : String) (context : Context) : Plan ValueType :=
  query (.outputType id key context)

def deliveredType (id : NodeId) (key : String) (context : Context) : Plan ValueType :=
  query (.deliveredType id key context)

def expectedType (id : NodeId) (key : String) (context : Context) : Plan ValueType :=
  query (.expectedType id key context)

/-- The elements of a list, each at its first place. -/
def distinct (ids : List NodeId) : List NodeId :=
  ids.foldl (fun seen id => if id ∈ seen then seen else seen ++ [id]) []

/-- The nodes that feed the declared inputs and properties of a node, each once. -/
def suppliers (n : Node) : Plan (List NodeId) := do
  let conns ← n.destinations.mapM fun s => connectionsInto n.id s.key
  return distinct (conns.flatten.map (·.src.node))

/-- The value of the first connection into a key. Without one it is the empty value of the type
that is expected there. -/
def inputValue (id : NodeId) (key : String) (scope : Scope) : Plan Value := do
  match ← connectionsInto id key with
  | c :: _ => value c.src.node scope c.src.key
  | [] => query (.emptyValue (← expectedType id key scope.context))

/-- The values of all connections into a key, by slot. -/
def inputValues (id : NodeId) (key : String) (scope : Scope) : Plan (List Value) := do
  (← connectionsInto id key).mapM fun c => value c.src.node scope c.src.key

/-- The type that the first connection into a key produces. -/
def upstreamType (id : NodeId) (key : String) (context : Context) : Plan ValueType := do
  match ← connectionsInto id key with
  | c :: _ => outputType c.src.node c.src.key context
  | [] => return .unresolved

/-- The type at a port: what a source delivers, or what a destination expects. -/
def portType (p : PortRef) (context : Context) : Plan ValueType :=
  if p.role.isSource then deliveredType p.node p.key context
  else expectedType p.node p.key context

/-- The port that a reference names. Only in a row of duplicates, where the mode is
`PortMode.duplicate`, does the slot count. -/
def port (p : PortRef) : Plan (Except GraphError Port) := do
  match ← query (.ports p.node) with
  | none => return .error (.nodeNotFound p.node)
  | some ports =>
    match ports.find? fun q => q.ref.sameGroup p && (q.slot == p.slot || q.mode ≠ .duplicate) with
    | some q => return .ok q
    | none => return .error (.portNotFound p.node p.key p.role)

end Dataflow.Plan
