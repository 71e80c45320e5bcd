import Dataflow.ValueType.Printer

/-! Unification: the type that satisfies two types at once (`unify`).

An unresolved type adds nothing, and a mismatch absorbs the other side, so failures travel as types.
-/

namespace Dataflow.ValueType

/-- The mismatch for a parameter that only `owner` has. -/
def lacking (owner : ValueType) (key : String) : ValueType :=
  mismatch s!"{owner} requires '{key}' which the other side lacks"

/-- A parameter that `other` lacks is taken as it is if `other` has no parameters at all, or if the
parameter is unresolved. -/
def oneSided (owner other : ValueType) (key : String) (present : ValueType) :
    Except ValueType ValueType :=
  if other.params.isEmpty || present.isUnresolved then .ok present
  else .error (lacking owner key)

/-- A parameter of both sides that unified to `t`. -/
def twoSided (owner : ValueType) (key : String) (t : ValueType) : Except ValueType ValueType :=
  if t.isMismatch then .error (mismatch (owner.name ++ "." ++ key ++ ": " ++ t.reason.getD ""))
  else .ok t

/-- Joins the parameters of two types of one name in the order of the keys; `join` holds, for each
parameter of `a`, what becomes of it when the other side has one too. The first failure is the
answer. -/
def joinParams (a b : ValueType) (join : List (String × (ValueType → ValueType))) :
    Except ValueType (List (String × ValueType)) :=
  (Fields.unionNames a.params b.params).mapM fun key => do
    let t ← match a.param? key, b.param? key, join.lookup key with
      | some _, some y, some f => twoSided a key (f y)
      | some x, none, _ => oneSided a b key x
      | none, some y, _ => oneSided b a key y
      | _, _, _ => .ok unresolved
    return (key, t)

mutual

def unify : ValueType → ValueType → ValueType
  | ⟨name, module, display, params, reason⟩, b =>
    let a : ValueType := ⟨name, module, display, params, reason⟩
    if a.isMismatch then a
    else if b.isMismatch then b
    else if a.isUnresolved then b
    else if b.isUnresolved then a
    else if a.name ≠ b.name ∨ a.module ≠ b.module then mismatch s!"cannot match {a} with {b}"
    else
      match joinParams a b (unifyParams params) with
      | .ok joined => { a with params := joined }
      | .error failure => failure

/-- For each parameter, its unification with another type. -/
def unifyParams : List (String × ValueType) → List (String × (ValueType → ValueType))
  | [] => []
  | (k, t) :: ps => (k, unify t) :: unifyParams ps

end

def unifies (a b : ValueType) : Bool := !(unify a b).isMismatch

/-- What satisfies all the types of a list, from the left. -/
def unifyAll (ts : List ValueType) : ValueType := ts.foldl unify unresolved

end Dataflow.ValueType
