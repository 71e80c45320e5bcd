import Dataflow.Definition.Basic
import Dataflow.Text.Blank
import Dataflow.ValueType.Unify

/-! Literals, collections, iteration, and objects. -/

namespace Dataflow.NodeDefinition

/-! ## Literals -/

/-- The type of a literal of a kind. -/
def literalType : ParamKind → ValueType
  | .text => .string
  | .number => .number
  | .boolean => .boolean

def literalDefault : ParamKind → ParamValue
  | .text => .text ""
  | .number => .number 0
  | .boolean => .boolean false

/-- Gives out its parameter. -/
def literal (kind : ParamKind) : NodeDefinition :=
  plain [.output "output"] [.ofDefault "value" (literalDefault kind)]
    (fun n _ _ =>
      match n.params["value"]? with
      | some p => pure p.toValue
      | none => Plan.query (.emptyValue (literalType kind)))
    (fun _ _ _ => pure (literalType kind))
    (fun _ _ _ => pure none)

/-! ## Arrays -/

/-- What has to go into an array so that it becomes what it delivers: the items of the type that
`Query.deliveredType` gives at its output. -/
def deliveredItems (n : Node) (context : Context) : Plan ValueType := do
  let t ← Plan.deliveredType n.id "output" context
  if t.isUnresolved || t.isMismatch then return t
  match t.param? "items" with
  | some items => return items
  | none => return .mismatch (n.label ++ " does not deliver an Array")

/-- Gathers its inputs by slot. -/
def array : NodeDefinition :=
  plain [.input "input" .duplicate, .output "output"] []
    (fun n scope _ => Value.array <$> Plan.inputValues n.id "input" scope)
    (fun n _ context => do
      let conns ← Plan.connectionsInto n.id "input"
      let items ← conns.mapM fun c => Plan.outputType c.src.node c.src.key context
      return .array (.unifyAll items))
    (fun n key context => demandAt "input" (deliveredItems n context) key)

/-! ## Iteration -/

/-- The type of the elements of an array. -/
def elementType (t : ValueType) : ValueType :=
  if t.isUnresolved || t.isMismatch then t
  else
    match t.param? "items" with
    | some items => if t.name = "Array" then items else notAnArray
    | none => notAnArray
where
  notAnArray : ValueType := .mismatch s!"Iterate expects an Array, got {t}"

/-- Runs over an array; gives out the element it is bound to, and its place at `index`. -/
def iterate : NodeDefinition where
  ports := [.input "input" .single, .output "output", .output "index"]
  params := []
  value n scope key := do
    match ← Plan.query (.bound n.id scope) with
    | none => return .nothing
    | some l => return if key = "index" then .number (Float.ofNat l.index) else l.value
  outputType n key context := do
    if key = "index" then return .number
    return elementType (← Plan.upstreamType n.id "input" context)
  inputType n key context :=
    demandAt "input" (ValueType.array <$> Plan.deliveredType n.id "output" context) key
  isIterator := true
  elements n scope := Value.items <$> Plan.inputValue n.id "input" scope
  isCollector := false

/-- Gathers its input over the iterators that feed it. -/
def collect : NodeDefinition where
  ports := [.input "input" .single, .output "output"]
  params := []
  value n scope _ := Plan.collect n.id scope
  outputType n _ context := ValueType.array <$> Plan.upstreamType n.id "input" context
  inputType n key context := demandAt "input" (deliveredItems n context) key
  isIterator := false
  elements _ _ := pure []
  isCollector := true

/-! ## Objects -/

/-- The field that a pair makes; a blank key makes none. -/
def fieldOf? : Value → Option (String × Value)
  | .pair key value =>
    let key := Text.trim key
    if key = "" then none else some (key, value)
  | _ => none

/-- The type of the field that a pair makes, as `fieldOf?` makes it of a value. -/
def fieldType (t : ValueType) : ValueType :=
  match t.param? "value" with
  | some value => if t.name = "Pair" then value else notAPair
  | none => notAPair
where
  notAPair : ValueType := .mismatch s!"Expected Pair, got {t}"

/-- The field that a connected node makes, told by the key that it has as a parameter. Where a value
is known it is `fieldOf?` of that. -/
def fieldAt? (c : Connection) (context : Context) : Plan (Option (String × ValueType)) := do
  match ← Plan.node? c.src.node with
  | none => return none
  | some source =>
    let key := Text.trim (source.textParam "key")
    if key = "" then return none
    return some (key, fieldType (← Plan.outputType c.src.node c.src.key context))

/-- Joins pairs; of two with one key the later slot counts. -/
def object : NodeDefinition :=
  plain [.input "input" .duplicate, .output "output"] []
    (fun n scope _ => do
      let values ← Plan.inputValues n.id "input" scope
      return .object (Fields.ofList (values.filterMap fieldOf?)))
    (fun n _ context => do
      let conns ← Plan.connectionsInto n.id "input"
      let fields ← conns.mapM fun c => fieldAt? c context
      return .object (Fields.ofList (fields.filterMap id)))
    (fun _ key _ => demandAt "input" (pure (.pair .unresolved)) key)

/-- Gives its input a name. -/
def pair : NodeDefinition :=
  plain [.input "input" .single, .output "output"] [.ofDefault "key" (.text "")]
    (fun n scope _ => Value.pair (n.textParam "key") <$> Plan.inputValue n.id "input" scope)
    (fun n _ context => ValueType.pair <$> Plan.upstreamType n.id "input" context)
    (fun _ key _ => demandAt "input" (pure .unresolved) key)

end Dataflow.NodeDefinition
