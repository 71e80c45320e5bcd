import Dataflow.Definition.Basic

/-! Arithmetic on two numbers. -/

namespace Dataflow

inductive Operation where
  | add
  | subtract
  | multiply
  | divide
  deriving DecidableEq, Repr

/-- Why a node has no result. -/
inductive ArithmeticError where
  | divisionByZero (node : String)
  deriving DecidableEq, Repr

def ArithmeticError.message : ArithmeticError → String
  | divisionByZero node => s!"Division by zero at node '{node}'"

namespace Operation

/-- Both zeros are refused as divisors. -/
def apply (op : Operation) (n : Node) (x y : Float) : Except ArithmeticError Float :=
  match op with
  | add => .ok (x + y)
  | subtract => .ok (x - y)
  | multiply => .ok (x * y)
  | divide => if y == 0 then .error (.divisionByZero n.label) else .ok (x / y)

/-- The second operand is not looked at if the first is no number. -/
def evaluate (op : Operation) (n : Node) (scope : Scope) : Plan Value := do
  match (← Plan.inputValue n.id "lhs" scope).number? with
  | none => return .nothing
  | some x =>
    match (← Plan.inputValue n.id "rhs" scope).number? with
    | none => return .nothing
    | some y =>
      match op.apply n x y with
      | .ok z => return .number z
      | .error _ => return .nothing

end Operation

def NodeDefinition.arithmetic (op : Operation) : NodeDefinition :=
  plain [.input "lhs" .single, .input "rhs" .single, .output "output"] []
    (fun n scope _ => op.evaluate n scope)
    (fun _ _ _ => pure .number)
    (fun _ key _ => pure (if key = "lhs" ∨ key = "rhs" then some .number else none))

end Dataflow
