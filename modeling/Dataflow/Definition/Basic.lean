import Dataflow.Query.Expansion

/-! What a kind of node does. -/

namespace Dataflow

structure NodeDefinition where
  /-- The port groups that a fresh node declares. -/
  ports : List PortSpec
  params : List ParamSpec
  value : Node → Scope → (key : String) → Plan Value
  outputType : Node → (key : String) → Context → Plan ValueType
  /-- The type demanded at a key, if the node takes anything in there. -/
  inputType : Node → (key : String) → Context → Plan (Option ValueType)
  /-- Whether the node runs over elements, and what they are. -/
  isIterator : Bool
  elements : Node → Scope → Plan (List Value)
  /-- Whether the node gathers what iterators before it run over. -/
  isCollector : Bool

namespace NodeDefinition

/-- Neither an iterator nor a collector. -/
def plain (ports : List PortSpec) (params : List ParamSpec)
    (value : Node → Scope → (key : String) → Plan Value)
    (outputType : Node → (key : String) → Context → Plan ValueType)
    (inputType : Node → (key : String) → Context → Plan (Option ValueType)) : NodeDefinition :=
  { ports, params, value, outputType, inputType
    isIterator := false, elements := fun _ _ => pure [], isCollector := false }

/-- A type demanded at one key alone: that is the answer if `asked` is this key. -/
def demandAt (key : String) (type : Plan ValueType) (asked : String) : Plan (Option ValueType) :=
  if asked = key then some <$> type else pure none

/-- What stands for a node of an unknown kind: it has no ports, and its type is a mismatch. -/
def notFound : NodeDefinition :=
  plain [] [] (fun _ _ _ => pure .nothing)
    (fun n _ _ => pure (.mismatch s!"unknown node type {n.module}.{n.type}"))
    (fun _ _ _ => pure none)

end NodeDefinition

end Dataflow
