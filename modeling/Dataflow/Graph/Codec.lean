import Dataflow.Document.Decoder
import Dataflow.Graph.Node

/-! Ports, nodes and connections as documents. -/

namespace Dataflow

open Document (Decoder)

namespace NodeId

def toDocument (id : NodeId) : Document := .nat id.index

def decoder : Decoder NodeId := fun depth d => mk <$> Decoder.nat idBound depth d

end NodeId

namespace ConnectionId

def toDocument (id : ConnectionId) : Document := .nat id.index

def decoder : Decoder ConnectionId := fun depth d => mk <$> Decoder.nat idBound depth d

end ConnectionId

namespace PortRole

def toDocument (r : PortRole) : Document := .str r.name

def decoder : Decoder PortRole :=
  Decoder.name [("input", input), ("output", output), ("property", property)]

end PortRole

namespace PortMode

def name : PortMode → String
  | single => "single"
  | multiple => "multiple"
  | duplicate => "duplicate"

def toDocument (m : PortMode) : Document := .str m.name

def decoder : Decoder PortMode :=
  Decoder.name [("single", single), ("multiple", multiple), ("duplicate", duplicate)]

end PortMode

namespace ParamKind

def toDocument (k : ParamKind) : Document := .str k.name

def decoder : Decoder ParamKind :=
  Decoder.name [("Text", text), ("Number", number), ("Boolean", boolean)]

end ParamKind

namespace PortSpec

def toDocument (s : PortSpec) : Document :=
  .record [("function", s.role.toDocument), ("key", .str s.key), ("mode", s.mode.toDocument)]

def decoder : Decoder PortSpec :=
  Decoder.record ["function", "key", "mode"] fun depth fields => do
    return {
      role := ← Decoder.required PortRole.decoder "function" depth fields
      key := ← Decoder.required Decoder.text "key" depth fields
      mode := ← Decoder.required PortMode.decoder "mode" depth fields }

end PortSpec

namespace PortRef

def toDocument (p : PortRef) : Document :=
  .record [("node", p.node.toDocument), ("key", .str p.key), ("function", p.role.toDocument),
    ("slot", .nat p.slot)]

/-- A slot that is left out is the first. -/
def decoder : Decoder PortRef :=
  Decoder.record ["node", "key", "function", "slot"] fun depth fields => do
    return {
      node := ← Decoder.required NodeId.decoder "node" depth fields
      key := ← Decoder.required Decoder.text "key" depth fields
      role := ← Decoder.required PortRole.decoder "function" depth fields
      slot := ← Decoder.defaulted (Decoder.nat countBound) 0 "slot" depth fields }

end PortRef

namespace Port

def toDocument (p : Port) : Document :=
  .record [("node", p.node.toDocument), ("key", .str p.key), ("function", p.role.toDocument),
    ("mode", p.mode.toDocument), ("slot", .nat p.slot)]

def decoder : Decoder Port :=
  Decoder.record ["node", "key", "function", "mode", "slot"] fun depth fields => do
    return {
      node := ← Decoder.required NodeId.decoder "node" depth fields
      key := ← Decoder.required Decoder.text "key" depth fields
      role := ← Decoder.required PortRole.decoder "function" depth fields
      mode := ← Decoder.required PortMode.decoder "mode" depth fields
      slot := ← Decoder.required (Decoder.nat countBound) "slot" depth fields }

end Port

namespace Connection

def toDocument (c : Connection) : Document :=
  .record [("id", c.id.toDocument), ("src", c.src.toDocument), ("dest", c.dest.toDocument)]

def decoder : Decoder Connection :=
  Decoder.record ["id", "src", "dest"] fun depth fields => do
    return {
      id := ← Decoder.required ConnectionId.decoder "id" depth fields
      src := ← Decoder.required PortRef.decoder "src" depth fields
      dest := ← Decoder.required PortRef.decoder "dest" depth fields }

end Connection

namespace ParamValue

/-- A parameter is written as what it holds, without its kind. -/
def toDocument : ParamValue → Document
  | text s => .str s
  | number x => .float x
  | boolean b => .bool b

def decoder : Decoder ParamValue
  | _, .text s => text <$> s
  | _, .number n => number <$> n.toFloat?
  | _, .bool b => some (boolean b)
  | _, _ => none

end ParamValue

namespace Node

def toDocument (n : Node) : Document :=
  .record [("id", n.id.toDocument), ("module", .str n.module), ("node_type", .str n.type),
    ("params", .record (n.params.toList.map fun (k, v) => (k, v.toDocument))),
    ("ports", .array (n.ports.map PortSpec.toDocument))]

/-- Parameters and ports may be left out. -/
def decoder : Decoder Node :=
  Decoder.record ["id", "module", "node_type", "params", "ports"] fun depth fields => do
    return {
      id := ← Decoder.required NodeId.decoder "id" depth fields
      module := ← Decoder.required Decoder.text "module" depth fields
      type := ← Decoder.required Decoder.text "node_type" depth fields
      params := .ofList
        (← Decoder.defaulted (Decoder.entries ParamValue.decoder) [] "params" depth fields) compare
      ports := ← Decoder.defaulted (Decoder.list PortSpec.decoder) [] "ports" depth fields }

end Node

end Dataflow
