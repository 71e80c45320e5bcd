import Dataflow.Value.Basic
import Dataflow.ValueType.Unify

/-! What the names of types mean: making a type of a kind, its empty value, and the values it
accepts. Which kind a name has is told by a table from module and name. A module may bring kinds of
its own. -/

namespace Dataflow

/-- The meaning that a module gives to a type name of its own. An empty value and a test are told
those of the parameters. -/
structure TypeDefinition where
  create : (params : List (String × ValueType)) → ValueType
  emptyValue : ValueType → (params : List (String × Value)) → Value
  test : ValueType → (params : List (String × (Value → Bool))) → Value → Bool

/-- The meaning of a type name. -/
inductive TypeKind where
  | unresolved
  | mismatch
  | string
  | number
  | boolean
  | array
  | object
  | pair
  | foreign (d : TypeDefinition)

/-- The kinds of the known types, by module and name. -/
abbrev TypeKinds := String → String → Option TypeKind

namespace ValueType

/-- A type of the given kind; parameters that the kind does not have are dropped. -/
def ofKind (params : List (String × ValueType)) : TypeKind → ValueType
  | .unresolved => unresolved
  | .mismatch => mismatch "created"
  | .string => string
  | .number => number
  | .boolean => boolean
  | .array => array ((params.lookup "items").getD unresolved)
  | .object => object params
  | .pair => pair ((params.lookup "value").getD unresolved)
  | .foreign d => d.create params

def unknown (module name : String) : ValueType := mismatch s!"unknown type {module}.{name}"

def create (kinds : TypeKinds) (module name : String) (params : List (String × ValueType)) :
    ValueType :=
  match kinds module name with
  | some kind => ofKind params kind
  | none => unknown module name

/-- What a producer delivers to its consumers: what it produces, unified with what they expect. A
concrete type has to be known. -/
def deliver (kinds : TypeKinds) (produced consumers : ValueType) : ValueType :=
  let t := unify produced consumers
  if t.isConcrete && (kinds t.module t.name).isNone then unknown t.module t.name else t

variable (kinds : TypeKinds)

mutual

/-- The value that stands for a missing one. An unknown type has nothing. -/
def emptyValue : ValueType → Value
  | ⟨name, module, display, params, reason⟩ =>
    match kinds module name with
    | some .string => .string ""
    | some .number => .number 0
    | some .boolean => .boolean false
    | some .array => .array []
    | some .object => .object []
    | some .pair => .pair "" (emptyParam params)
    | some (.foreign d) => d.emptyValue ⟨name, module, display, params, reason⟩ (emptyParams params)
    | _ => .nothing

/-- The empty value of the parameter `value`. -/
def emptyParam : List (String × ValueType) → Value
  | [] => .nothing
  | (k, t) :: ps => if k == "value" then emptyValue t else emptyParam ps

def emptyParams : List (String × ValueType) → List (String × Value)
  | [] => []
  | (k, t) :: ps => (k, emptyValue t) :: emptyParams ps

end

mutual

/-- Whether a value is of a type. An unknown type accepts nothing. -/
def accepts : ValueType → Value → Bool
  | ⟨name, module, display, params, reason⟩, v =>
    match kinds module name, v with
    | some .unresolved, _ => true
    | some .string, .string _ => true
    | some .number, .number _ => true
    | some .boolean, .boolean _ => true
    | some .array, .array items => items.all (acceptsAs "items" params)
    | some .object, .object fields => acceptsFields params fields
    | some .pair, .pair _ value => acceptsAs "value" params value
    | some (.foreign d), v => d.test ⟨name, module, display, params, reason⟩ (tests params) v
    | _, _ => false

/-- Whether a value is of the type of a parameter; an absent or unresolved one accepts all. -/
def acceptsAs (key : String) : List (String × ValueType) → Value → Bool
  | [], _ => true
  | (k, t) :: ps, v => if k == key then t.isUnresolved || accepts t v else acceptsAs key ps v

/-- Whether every parameter has a field of its type. -/
def acceptsFields : List (String × ValueType) → List (String × Value) → Bool
  | [], _ => true
  | (k, t) :: ps, fields =>
    (match fields.lookup k with
      | some v => t.isUnresolved || accepts t v
      | none => false) && acceptsFields ps fields

/-- The tests of the parameters. -/
def tests : List (String × ValueType) → List (String × (Value → Bool))
  | [] => []
  | (k, t) :: ps => (k, accepts t) :: tests ps

end

end ValueType

end Dataflow
