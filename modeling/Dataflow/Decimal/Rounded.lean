import Dataflow.Decimal.Numeral

/-! The number that a numeral denotes.

The digits are gathered into one whole number of at most sixty-four bits; digits beyond that only
move the point. The result is that whole number times or divided by a power of ten. -/

namespace Dataflow.Decimal

/-- The whole number gathered so far, the power of ten it stands before, and whether it is full. -/
structure Significand where
  value : Nat
  exponent : Int
  full : Bool
  deriving DecidableEq, Repr

namespace Significand

def takes (s : Significand) (d : Digit) : Bool := !s.full && s.value * 10 + d.val < Nat.pow 2 64

def pushWhole (s : Significand) (d : Digit) : Significand :=
  if s.takes d then { s with value := s.value * 10 + d.val }
  else { s with exponent := s.exponent + 1, full := true }

def pushFraction (s : Significand) (d : Digit) : Significand :=
  if s.takes d then { s with value := s.value * 10 + d.val, exponent := s.exponent - 1 }
  else { s with full := true }

end Significand

/-- The largest exponent that is still counted. -/
def exponentLimit : Nat := Nat.pow 2 31 - 1

/-- The written exponent, or `none` when it is beyond the limit. -/
def exponentOf (ds : List Digit) : Option Nat :=
  ds.foldlM (fun e d => if e * 10 + d.val ≤ exponentLimit then some (e * 10 + d.val) else none) 0

def clampExponent (e : Int) : Int := max (-(exponentLimit + 1 : Int)) (min e exponentLimit)

def powerOfTen (n : Nat) : Float := .ofScientific 1 false n

/-- Divides by a power of ten, by 10 ^ 308 as often as needed. Four rounds bring every number
to zero. -/
def descend (x : Float) (n : Nat) : (rounds : Nat) → Float
  | 0 => x
  | rounds + 1 =>
    if n ≤ 308 then x / powerOfTen n
    else if x == 0 then x
    else descend (x / powerOfTen 308) (n - 308) rounds

/-- A number times a power of ten. An overflow has no result. -/
def scale (x : Float) (exponent : Int) : Option Float :=
  if exponent < 0 then some (descend x exponent.natAbs 4)
  else if x == 0 then some x
  else if exponent ≤ 308 then
    let y := x * powerOfTen exponent.toNat
    if y.isInf then none else some y
  else none

namespace Numeral

def significand (n : Numeral) : Significand :=
  let s := n.whole.foldl Significand.pushWhole ⟨0, 0, false⟩
  (n.fraction.getD []).foldl Significand.pushFraction { s with full := false }

/-- The number that a numeral denotes, or `none` on overflow. -/
def toFloat? (n : Numeral) : Option Float :=
  let s := n.significand
  let x := Float.ofNat s.value
  let unsigned :=
    match n.exponent with
    | none => scale x s.exponent
    | some (negative, ds) =>
      match exponentOf ds with
      | some e => scale x (clampExponent (s.exponent + if negative then -(e : Int) else e))
      | none => if s.value = 0 ∨ negative then some 0 else none
  unsigned.map fun y => if n.negative then -y else y

end Numeral

end Dataflow.Decimal
