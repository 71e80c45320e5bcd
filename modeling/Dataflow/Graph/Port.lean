import Dataflow.Graph.Id

/-! Ports: declared groups, references to one port of a group, and the ports a node shows. -/

namespace Dataflow

/-- What a port does for its node. Outputs are sources, inputs and properties destinations. -/
inductive PortRole where
  | input
  | output
  | property
  deriving DecidableEq, Repr, Inhabited

namespace PortRole

def name : PortRole → String
  | input => "input"
  | output => "output"
  | property => "property"

instance : ToString PortRole := ⟨name⟩

def isSource : PortRole → Bool
  | output => true
  | _ => false

/-- Inputs come before outputs, and outputs before properties. -/
def rank : PortRole → Nat
  | input => 0
  | output => 1
  | property => 2

end PortRole

/-- How many connections a port takes: one, any number, or one for each slot of a growing row, the
row of duplicates. -/
inductive PortMode where
  | single
  | multiple
  | duplicate
  deriving DecidableEq, Repr, Inhabited

/-- A group of ports that a node declares. -/
structure PortSpec where
  role : PortRole
  key : String
  mode : PortMode
  deriving DecidableEq, Repr, Inhabited

namespace PortSpec

def input (key : String) (mode : PortMode) : PortSpec := ⟨.input, key, mode⟩

def output (key : String) : PortSpec := ⟨.output, key, .multiple⟩

def property (key : String) : PortSpec := ⟨.property, key, .single⟩

end PortSpec

/-- The address of a port. -/
structure PortRef where
  node : NodeId
  key : String
  role : PortRole
  slot : Nat
  deriving DecidableEq, Repr, Inhabited

namespace PortRef

/-- Whether two references name the same group of ports, whatever their slots. -/
def sameGroup (p q : PortRef) : Bool := p.node == q.node && p.key == q.key && p.role == q.role

instance : ToString PortRef :=
  ⟨fun p => toString p.node ++ "." ++ p.key ++ "[" ++ toString p.slot ++ "]:" ++ p.role.name⟩

/-- By node, then key, then role, then slot. -/
def order (p q : PortRef) : Ordering :=
  (compare p.node q.node).then <| (compare p.key q.key).then <|
    (compare p.role.rank q.role.rank).then <| compare p.slot q.slot

end PortRef

/-- One port of a node, as it is shown. A row of duplicates shows several, told apart by `slot`. -/
structure Port where
  node : NodeId
  key : String
  role : PortRole
  mode : PortMode
  slot : Nat
  deriving DecidableEq, Repr, Inhabited

def Port.ref (p : Port) : PortRef := ⟨p.node, p.key, p.role, p.slot⟩

/-- The least slot that is not taken. -/
def leastFree (taken : List Nat) : Nat :=
  ((List.range (taken.length + 1)).find? fun s => !taken.contains s).getD 0

end Dataflow
