import Dataflow.Decimal.Layout
import Dataflow.Text.Quoted
import Dataflow.Value.Basic

/-! The text of a value. -/

namespace Dataflow.Value

/-- Numbers are written without a power of ten, whole ones without a point, and a half goes up. -/
def layout : Decimal.Layout := ⟨.up, fun _ => true, false⟩

def numberText (x : Float) : String :=
  match layout.numeral? x with
  | some n => n.text
  | none => if x.isNaN then "NaN" else if x < 0 then "-inf" else "inf"

def openBrace : String := "\x7b"
def closeBrace : String := "\x7d"

mutual

def text : Value → String
  | nothing => "nothing"
  | boolean b => if b then "true" else "false"
  | number x => numberText x
  | string s => Text.quoted s
  | array items => "[" ++ ", ".intercalate (itemTexts items) ++ "]"
  | object fields => openBrace ++ ", ".intercalate (fieldTexts fields) ++ closeBrace
  | pair key value => key ++ " => " ++ text value

def itemTexts : List Value → List String
  | [] => []
  | v :: vs => text v :: itemTexts vs

def fieldTexts : List (String × Value) → List String
  | [] => []
  | (k, v) :: fs => (k ++ ": " ++ text v) :: fieldTexts fs

end

end Dataflow.Value
