import Dataflow.Graph.Port
import Dataflow.Value.Basic

/-! Nodes, their parameters, and the connections between their ports. -/

namespace Dataflow

inductive ParamKind where
  | text
  | number
  | boolean
  deriving DecidableEq, Repr, Inhabited

namespace ParamKind

def name : ParamKind → String
  | text => "Text"
  | number => "Number"
  | boolean => "Boolean"

instance : ToString ParamKind := ⟨name⟩

end ParamKind

inductive ParamValue where
  | text (s : String)
  | number (x : Float)
  | boolean (b : Bool)
  deriving DecidableEq, Inhabited

namespace ParamValue

def kind : ParamValue → ParamKind
  | text _ => .text
  | number _ => .number
  | boolean _ => .boolean

def text? : ParamValue → Option String
  | text s => some s
  | _ => none

def toValue : ParamValue → Value
  | text s => .string s
  | number x => .number x
  | boolean b => .boolean b

/-- Equality in which numbers are compared as numbers. -/
def agrees : ParamValue → ParamValue → Bool
  | text s, text t => s == t
  | number x, number y => x == y
  | boolean a, boolean b => a == b
  | _, _ => false

end ParamValue

/-- A parameter that a kind of node has. -/
structure ParamSpec where
  key : String
  kind : ParamKind
  default : ParamValue
  deriving DecidableEq, Inhabited

namespace ParamSpec

def ofDefault (key : String) (value : ParamValue) : ParamSpec := ⟨key, value.kind, value⟩

end ParamSpec

abbrev Params := Std.ExtTreeMap String ParamValue compare

/-- A node of the graph. Module and type select what it does. -/
structure Node where
  id : NodeId
  module : String
  type : String
  params : Params
  ports : List PortSpec
  deriving DecidableEq

namespace Node

def port? (n : Node) (key : String) (role : PortRole) : Option PortSpec :=
  n.ports.find? fun s => s.key == key && s.role == role

def label (n : Node) : String := n.module ++ "." ++ n.type ++ toString n.id

/-- The ports that take something in. -/
def destinations (n : Node) : List PortSpec := n.ports.filter fun s => !s.role.isSource

/-- The ports that give something out. -/
def sources (n : Node) : List PortSpec := n.ports.filter fun s => s.role.isSource

/-- A text parameter; empty if it is absent or no text. -/
def textParam (n : Node) (key : String) : String := (n.params[key]?.bind ParamValue.text?).getD ""

end Node

structure Connection where
  id : ConnectionId
  src : PortRef
  dest : PortRef
  deriving DecidableEq, Repr, Inhabited

end Dataflow
