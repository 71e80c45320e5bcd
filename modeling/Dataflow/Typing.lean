import Dataflow.Catalogue
import Dataflow.Graph.Order
import Dataflow.Wiring

/-! Checking the types of a whole graph, producers before consumers. -/

namespace Dataflow

/-- What is wrong at a node. -/
inductive Finding where
  | cycle
  | unknownType (module type : String)
  | output (key : String) (t : ValueType)
  | wire (src : PortRef) (delivered : ValueType) (dest : PortRef) (expected : ValueType)
  deriving DecidableEq, Repr

namespace Finding

/-- The sort of a finding. -/
def kind : Finding → String
  | cycle => "Cycle"
  | unknownType _ _ => "Structural"
  | output _ _ => "Mismatch"
  | wire _ _ _ _ => "Mismatch"

def message : Finding → String
  | cycle => "connections form a cycle"
  | unknownType module type => s!"unknown node type {module}.{type}"
  | output key t => s!"output '{key}' resolves to {t}"
  | wire src delivered dest expected => disagreement src delivered dest expected

end Finding

structure Diagnostic where
  node : NodeId
  /-- How the node is called. -/
  name : String
  finding : Finding
  deriving DecidableEq, Repr

def Diagnostic.text (d : Diagnostic) : String :=
  s!"[{d.finding.kind}] {d.name}: {d.finding.message}"

/-- The findings so far, and the type that each node checked so far delivers, as `primary` tells it.
-/
structure Typing where
  diagnostics : List Diagnostic
  inferred : Std.ExtTreeMap NodeId ValueType compare

namespace Typing

def empty : Typing := ⟨[], ∅⟩

/-- Notes what was found at a node and the type that it delivers. -/
def add (t : Typing) (n : Node) (findings : List Finding) (type : ValueType) : Typing :=
  { diagnostics := t.diagnostics ++ findings.map fun f => ⟨n.id, n.label, f⟩
    inferred := t.inferred.insert n.id type }

def isMismatch (t : Typing) (id : NodeId) : Bool :=
  match t.inferred[id]? with
  | some type => type.isMismatch
  | none => false

/-- The types that a node delivers, by key. -/
def delivered (n : Node) : Plan (List (String × ValueType)) :=
  n.sources.mapM fun s => do return (s.key, ← Plan.deliveredType n.id s.key .root)

/-- The type that stands for a node: that of its last `output`, or else of its first source. -/
def primary (types : List (String × ValueType)) : ValueType :=
  match (types.filter (·.1 = "output")).getLast?, types.head? with
  | some (_, t), _ => t
  | none, some (_, t) => t
  | none, none => .unresolved

/-- The findings at the connections into one declared destination. What delivers a mismatch was
reported before, at the node that delivers it. -/
def wireFindings (n : Node) (s : PortSpec) : Plan (List Finding) := do
  let conns := (← Plan.connectionsInto n.id s.key).filter (·.dest.role = s.role)
  let found ← conns.mapM fun c => do
    let delivered ← Plan.deliveredType c.src.node c.src.key .root
    let expected ← Plan.expectedType n.id s.key .root
    return if !delivered.isMismatch && !delivered.unifies expected
      then some (Finding.wire c.src delivered c.dest expected) else none
  return found.filterMap id

/-- Checks one node. A mismatch that comes from a supplier is not reported again; a node of an
unknown kind is all that is reported of it. -/
def checkNode (c : Catalogue) (t : Typing) (n : Node) : Plan Typing := do
  if !c.contains n.module n.type then
    let finding := Finding.unknownType n.module n.type
    return t.add n [finding] (.mismatch finding.message)
  let inherited := (← Plan.suppliers n).any t.isMismatch
  let types ← delivered n
  let outputs := (types.filter fun (_, type) => type.isMismatch && !inherited).map
    fun (key, type) => Finding.output key type
  let wires ← n.destinations.mapM (wireFindings n)
  return t.add n (outputs ++ wires.flatten) (primary types)

def checkAll (c : Catalogue) : Typing → List NodeId → Plan Typing
  | t, [] => return t
  | t, id :: ids => do
    match ← Plan.node? id with
    | some n => checkAll c (← checkNode c t n) ids
    | none => checkAll c t ids

/-- Checks all nodes of a graph, in its `topologicalOrder`. Around a cycle nothing is checked. -/
def check (c : Catalogue) (g : Graph) : Plan Typing := do
  match g.topologicalOrder with
  | .ok order => checkAll c empty order
  | .error id =>
    let name := ((g.node? id).map Node.label).getD (toString id)
    return ⟨[⟨id, name, .cycle⟩], ∅⟩

end Typing

end Dataflow
