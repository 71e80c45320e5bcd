import Dataflow.Graph.Reach
import Dataflow.Query.Inputs
import Dataflow.ValueType.Unify

/-! Which ports may be joined, and which connections no longer fit. -/

namespace Dataflow

/-- Two ports to be joined, told apart by their roles. -/
structure Wire where
  src : PortRef
  dest : PortRef
  deriving DecidableEq, Repr

namespace Wire

/-- Tells source and destination apart, whichever way round two ports are given. -/
def ofPorts (pending candidate : PortRef) : Except Rejection Wire :=
  if pending = candidate then .error .samePort
  else if pending.node = candidate.node then .error .sameNode
  else
    let (src, dest) :=
      if candidate.role.isSource then (candidate, pending) else (pending, candidate)
    if !src.role.isSource || dest.role.isSource then .error (.incompatibleRoles src.role dest.role)
    else .ok ⟨src, dest⟩

def existing (p : PortRef) : ExceptT Rejection Plan Port := do
  match ← (Plan.port p : Plan _) with
  | .ok port => return port
  | .error _ => throw (.missingPort p)

/-- A port for one connection must not have one yet, and of two ports one must be bounded. -/
def checkCardinality (w : Wire) (src dest : PortMode) : ExceptT Rejection Plan Unit := do
  if src = .multiple ∧ dest = .multiple then throw (.cardinality .manyToMany)
  if dest = .single then
    let conns ← (Plan.connectionsInto w.dest.node w.dest.key : Plan _)
    unless conns.isEmpty do throw (.cardinality (.occupied w.dest))
  if src = .single then
    let conns ← (Plan.connectionsFrom w.src.node w.src.key : Plan _)
    unless conns.isEmpty do throw (.cardinality (.exhausted w.src))

/-- What is delivered at one end and expected at the other, where the two do not unify. -/
def disagreement? (w : Wire) : Plan (Option Rejection) := do
  let delivered ← Plan.deliveredType w.src.node w.src.key .root
  let expected ← Plan.expectedType w.dest.node w.dest.key .root
  return if delivered.unifies expected then none
    else some (.typeMismatch w.src delivered w.dest expected)

/-- Whether two ports may be joined: the wire between them, or what speaks against it. The roles
come first, then ports that are not there, `checkCardinality`, a cycle, and the types. -/
def check (g : Graph) (pending candidate : PortRef) : ExceptT Rejection Plan Wire := do
  let w ← ofPorts pending candidate
  let src ← existing w.src
  let dest ← existing w.dest
  w.checkCardinality src.mode dest.mode
  if (g.upstream [w.src.node]).contains w.dest.node then throw .cycle
  match ← (w.disagreement? : Plan _) with
  | some r => throw r
  | none => return w

end Wire

/-- The connections whose ends do not fit, with what speaks against each. -/
def Graph.invalidConnections (g : Graph) : Plan (List (Connection × Rejection)) := do
  let found ← g.connectionList.mapM fun c => do
    return (← Wire.disagreement? ⟨c.src, c.dest⟩).map fun r => (c, r)
  return found.filterMap id

/-- How a port looks while another one is dragged. -/
inductive PortState where
  | pending
  | hot
  | default
  deriving DecidableEq, Repr

namespace PortState

def name : PortState → String
  | pending => "pending"
  | hot => "hot"
  | default => "default"

/-- The dragged port itself is pending; those that it may be joined to are hot. -/
def ofPort (g : Graph) (dragged : Option PortRef) (p : PortRef) : Plan PortState := do
  match dragged with
  | none => return default
  | some d =>
    if d = p then return pending
    match ← (Wire.check g d p).run with
    | .ok _ => return hot
    | .error _ => return default

end PortState

end Dataflow
