import Dataflow.Document.Decoder
import Dataflow.ValueType.Basic

/-! Types as documents. -/

namespace Dataflow.ValueType

open Document (Decoder)

mutual

/-- The reason is left out where there is none. -/
def toDocument : ValueType → Document
  | ⟨name, module, display, params, reason⟩ =>
    .record <|
      [("name", .str name), ("module", .str module), ("display", .str display),
        ("params", .record (paramDocuments params))] ++
      match reason with
      | some r => [("reason", .str r)]
      | none => []

def paramDocuments : List (String × ValueType) → List (String × Document)
  | [] => []
  | (k, t) :: ps => (k, toDocument t) :: paramDocuments ps

end

def fieldNames : List String := ["name", "module", "display", "params", "reason"]

def decoder : Decoder ValueType
  | 0, _ => none
  | depth + 1, d => do
    let fields ← d.fields? fieldNames
    let params ← match fields.lookup "params", depth with
      | none, _ => some []
      | some _, 0 => none
      | some d, depth + 1 =>
        (← d.entries?).mapM fun (k, d) => do return (k, ← decoder depth d)
    return {
      name := ← Decoder.required Decoder.text "name" depth fields
      module := ← Decoder.required Decoder.text "module" depth fields
      display := ← Decoder.required Decoder.text "display" depth fields
      params := Fields.ofList params
      reason := ← Decoder.defaulted (Decoder.option Decoder.text) none "reason" depth fields }

end Dataflow.ValueType
