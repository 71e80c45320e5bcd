import Dataflow.Text.Substitution
import Dataflow.ValueType.Basic

/-! The text of a type. -/

namespace Dataflow.ValueType

/-- A parameter name as it stands in a template. -/
def placeholder (key : String) : String := "\x7b" ++ key ++ "\x7d"

/-- Fills a template, one parameter after the other. -/
def fill (template : String) (params : List (String × String)) : String :=
  params.foldl (fun t (key, text) => Text.substitute (placeholder key) text t) template

mutual

/-- A mismatch shows its reason and an object its fields; any other type fills its template. -/
def text : ValueType → String
  | ⟨name, module, display, params, reason⟩ =>
    if module == "Core" && name == "Mismatch" then
      match reason with
      | some r => "Mismatch(" ++ r ++ ")"
      | none => "Mismatch"
    else if module == "Core" && name == "Object" then
      "Object\x7b" ++ ", ".intercalate ((paramTexts params).map fun (k, t) => k ++ ": " ++ t) ++
        "\x7d"
    else fill display (paramTexts params)

def paramTexts : List (String × ValueType) → List (String × String)
  | [] => []
  | (k, t) :: ps => (k, text t) :: paramTexts ps

end

instance : ToString ValueType := ⟨text⟩

end Dataflow.ValueType
