import Dataflow.Fields

/-! Types of values: a name in a module, a template for its text, and parameters.

Two names of the module `Core` are special. `Unresolved` is a type of which nothing is known yet,
`Mismatch` one that cannot be, and carries the reason. -/

namespace Dataflow

structure ValueType where
  name : String
  module : String
  /-- The text of the type, with parameter names between braces. -/
  display : String
  /-- In the order of the names. -/
  params : List (String × ValueType)
  reason : Option String
  deriving Repr, Inhabited

namespace ValueType

mutual

def decEq : (a b : ValueType) → Decidable (a = b)
  | ⟨n, m, d, ps, r⟩, ⟨n', m', d', ps', r'⟩ =>
    if h : n = n' ∧ m = m' ∧ d = d' ∧ r = r' then
      match decEqParams ps ps' with
      | isTrue hp => isTrue (by obtain ⟨rfl, rfl, rfl, rfl⟩ := h; rw [hp])
      | isFalse hp => isFalse fun e => hp (ValueType.mk.inj e).2.2.2.1
    else
      isFalse fun e => h <| by
        obtain ⟨h₁, h₂, h₃, _, h₄⟩ := ValueType.mk.inj e
        exact ⟨h₁, h₂, h₃, h₄⟩

def decEqParams : (ps qs : List (String × ValueType)) → Decidable (ps = qs)
  | [], [] => isTrue rfl
  | [], _ :: _ => isFalse nofun
  | _ :: _, [] => isFalse nofun
  | (k, a) :: ps, (l, b) :: qs =>
    match decEq a b, decEqParams ps qs with
    | isTrue ha, isTrue hp =>
      if hk : k = l then isTrue (by rw [hk, ha, hp])
      else isFalse fun e => hk (Prod.mk.inj (List.cons.inj e).1).1
    | isFalse ha, _ => isFalse fun e => ha (Prod.mk.inj (List.cons.inj e).1).2
    | _, isFalse hp => isFalse fun e => hp (List.cons.inj e).2

end

instance : DecidableEq ValueType := decEq

def core (name display : String) (params : List (String × ValueType)) : ValueType :=
  ⟨name, "Core", display, params, none⟩

def unresolved : ValueType := core "Unresolved" "?" []

def mismatch (reason : String) : ValueType :=
  { core "Mismatch" "Mismatch" [] with reason := some reason }

def string : ValueType := core "String" "String" []

def number : ValueType := core "Number" "Number" []

def boolean : ValueType := core "Boolean" "Boolean" []

def array (items : ValueType) : ValueType := core "Array" "Array<\x7bitems\x7d>" [("items", items)]

def pair (value : ValueType) : ValueType := core "Pair" "Pair<\x7bvalue\x7d>" [("value", value)]

def object (fields : List (String × ValueType)) : ValueType := core "Object" "Object" fields

def isCore (t : ValueType) (name : String) : Bool := t.module == "Core" && t.name == name

def isUnresolved (t : ValueType) : Bool := t.isCore "Unresolved"

def isMismatch (t : ValueType) : Bool := t.isCore "Mismatch"

/-- Neither unresolved nor a mismatch. -/
def isConcrete (t : ValueType) : Bool := !t.isUnresolved && !t.isMismatch

def param? (t : ValueType) (key : String) : Option ValueType := t.params.lookup key

mutual

/-- How many arrays are nested in one another. -/
def arrayDepth : ValueType → Nat
  | ⟨name, module, _, params, _⟩ =>
    if module == "Core" && name == "Array" then 1 + itemsDepth params else 0

/-- The depth of the parameter `items`, if there is one. -/
def itemsDepth : List (String × ValueType) → Nat
  | [] => 0
  | (k, t) :: ps => if k == "items" then arrayDepth t else itemsDepth ps

end

end ValueType

end Dataflow
