import Dataflow.Document.Decoder
import Dataflow.Value.Basic

/-! Values as documents. -/

namespace Dataflow.Value

open Document (Decoder)

mutual

/-- Nothing is its name alone; any other value stands under the name of its sort. -/
def toDocument : Value → Document
  | nothing => .str "Nothing"
  | boolean b => .record [("Boolean", .bool b)]
  | number x => .record [("Number", .float x)]
  | string s => .record [("String", .str s)]
  | array items => .record [("Array", .array (itemDocuments items))]
  | object fields => .record [("Object", .record (fieldDocuments fields))]
  | pair key value =>
    .record [("Pair", .record [("key", .str key), ("value", toDocument value)])]

def itemDocuments : List Value → List Document
  | [] => []
  | v :: vs => toDocument v :: itemDocuments vs

def fieldDocuments : List (String × Value) → List (String × Document)
  | [] => []
  | (k, v) :: fs => (k, toDocument v) :: fieldDocuments fs

end

def decoder : Decoder Value
  | _, .text s => if s = some "Nothing" then some .nothing else none
  | depth + 1, .object [(some name, d)] =>
    match name, depth with
    | "Nothing", _ => match d with
      | .null => some .nothing
      | _ => none
    | "Boolean", _ => boolean <$> Decoder.bool depth d
    | "Number", _ => number <$> Decoder.float depth d
    | "String", _ => string <$> Decoder.text depth d
    | "Array", depth + 1 => do return .array (← (← d.items?).mapM (decoder depth))
    | "Object", depth + 1 => do
      let fields ← (← d.entries?).mapM fun (k, d) => do return (k, ← decoder depth d)
      return .object (Fields.ofList fields)
    | "Pair", depth + 1 => do
      let fields ← d.fields? ["key", "value"]
      return .pair (← Decoder.required Decoder.text "key" depth fields)
        (← (fields.lookup "value").bind (decoder depth))
    | _, _ => none
  | _, _ => none

end Dataflow.Value
