import Dataflow.Fields

/-! Values that flow between nodes. -/

namespace Dataflow

/-- A value. The fields of an object are kept in the order of their names. -/
inductive Value where
  | nothing
  | boolean (b : Bool)
  | number (x : Float)
  | string (s : String)
  | array (items : List Value)
  | object (fields : List (String × Value))
  | pair (key : String) (value : Value)
  deriving Inhabited

namespace Value

def isNothing : Value → Bool
  | nothing => true
  | _ => false

def number? : Value → Option Float
  | number x => some x
  | _ => none

def array? : Value → Option (List Value)
  | array items => some items
  | _ => none

/-- The elements of an array; any other value has none. -/
def items (v : Value) : List Value := v.array?.getD []

/-- How many arrays are nested in one another, following first elements. -/
def arrayDepth : Value → Nat
  | array [] => 1
  | array (v :: _) => 1 + v.arrayDepth
  | _ => 0

mutual

/-- Equality in which numbers are compared as numbers: an undefined number differs from itself and
the two zeros are equal. -/
def agrees : Value → Value → Bool
  | nothing, nothing => true
  | boolean a, boolean b => a == b
  | number x, number y => x == y
  | string s, string t => s == t
  | array vs, array ws => agreeItems vs ws
  | object fs, object gs => agreeFields fs gs
  | pair k v, pair l w => k == l && agrees v w
  | _, _ => false

def agreeItems : List Value → List Value → Bool
  | [], [] => true
  | v :: vs, w :: ws => agrees v w && agreeItems vs ws
  | _, _ => false

def agreeFields : List (String × Value) → List (String × Value) → Bool
  | [], [] => true
  | (k, v) :: fs, (l, w) :: gs => k == l && agrees v w && agreeFields fs gs
  | _, _ => false

end

end Value

end Dataflow
