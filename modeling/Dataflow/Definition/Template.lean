import Dataflow.Definition.Basic

/-! Kinds of nodes that are given by data. -/

namespace Dataflow

/-- A node with fixed answers. What is left open is passed on from its input. -/
structure Template where
  ports : List PortSpec
  params : List ParamSpec
  value : Option Value
  type : Option ValueType
  /-- Demanded at every input and property. -/
  accepts : Option ValueType
  /-- Makes the node an iterator over these elements. -/
  elements : Option (List Value)
  isCollector : Bool

namespace Template

def valueAt (t : Template) (n : Node) (scope : Scope) : Plan Value := do
  match t.elements, t.value with
  | some _, _ =>
    match ← Plan.query (.bound n.id scope) with
    | some l => return l.value
    | none => return .nothing
  | none, some v => return v
  | none, none => Plan.inputValue n.id "input" scope

def definition (t : Template) : NodeDefinition where
  ports := t.ports
  params := t.params
  value n scope _ := t.valueAt n scope
  outputType n _ context :=
    match t.type with
    | some type => pure type
    | none => Plan.upstreamType n.id "input" context
  inputType _ key _ :=
    pure (if t.ports.any fun s => !s.role.isSource && s.key == key
      then some (t.accepts.getD .unresolved) else none)
  isIterator := t.elements.isSome
  elements _ _ := pure (t.elements.getD [])
  isCollector := t.isCollector

end Template

/-- Answers with what it was asked. -/
def NodeDefinition.echo : NodeDefinition :=
  plain [.property "prop", .output "output"] []
    (fun n _ key =>
      pure (.array [.string key, .number (Float.ofNat n.id.index), .boolean true]))
    (fun _ _ _ => pure .unresolved)
    (fun _ _ _ => pure none)

end Dataflow
