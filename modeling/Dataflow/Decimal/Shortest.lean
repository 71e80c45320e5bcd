/-! The shortest decimal that reads back as a given binary number.

A finite nonzero number is `m · 2 ^ q`. The reals that round to it form an interval around it, with
both ends included exactly if `m` is even. Among the powers of ten whose multiples meet the interval
the largest is taken, and of the multiples in the interval the one nearest to the number. -/

namespace Dataflow.Decimal

/-- A number `mantissa * 2 ^ exponent`; the sign is kept apart. -/
structure Binary where
  mantissa : Nat
  exponent : Int
  deriving DecidableEq, Repr

/-- What the bits of a number say: not a number, an infinity, or a finite magnitude. -/
inductive Magnitude where
  | undefined
  | infinite
  | finite (b : Binary)
  deriving DecidableEq, Repr

def isNegative (x : Float) : Bool := x.toBits >>> 63 == 1

/-- The leading bit of a mantissa, which the bits of a number leave out. -/
def leadingBit : Nat := Nat.pow 2 52

def magnitude (x : Float) : Magnitude :=
  let bits : Nat := x.toBits.toNat % Nat.pow 2 63
  let field : Nat := bits / leadingBit
  let fraction : Nat := bits % leadingBit
  if field = 0x7FF then if fraction = 0 then .infinite else .undefined
  else if field = 0 then .finite ⟨fraction, -1074⟩
  else .finite ⟨leadingBit + fraction, field - 1075⟩

def isFinite (x : Float) : Bool :=
  match magnitude x with
  | .finite _ => true
  | _ => false

/-- Which way an exact half goes. -/
inductive Tie where
  | up
  | toEven
  deriving DecidableEq, Repr

/-- A number `digits * 10 ^ exponent`. -/
structure Scaled where
  digits : Nat
  exponent : Int
  deriving DecidableEq, Repr

/-- The interval of a number in quarter units `2 ^ (q - 2)` of its last place. Below a power of two
the numbers are twice as dense, so the lower end is half as far away. -/
structure Interval where
  low : Nat
  mid : Nat
  high : Nat
  closed : Bool
  deriving DecidableEq, Repr

def Binary.interval (b : Binary) : Interval :=
  let below := if b.mantissa = leadingBit ∧ b.exponent ≠ -1074 then 1 else 2
  { low := 4 * b.mantissa - below
    mid := 4 * b.mantissa
    high := 4 * b.mantissa + 2
    closed := b.mantissa % 2 == 0 }

/-- Whether `point * den` lies in an interval whose ends are scaled by `num`. -/
def Interval.holds (i : Interval) (num den point : Nat) : Bool :=
  if i.closed then i.low * num ≤ point * den && point * den ≤ i.high * num
  else i.low * num < point * den && point * den < i.high * num

/-- The multiple of `10 ^ exponent` in the interval that is nearest to its middle, if there is one.
-/
def Binary.onGrid? (b : Binary) (tie : Tie) (exponent : Int) : Option Nat :=
  let i := b.interval
  let num := Nat.pow 2 (b.exponent - 2).toNat * Nat.pow 10 (-exponent).toNat
  let den := Nat.pow 2 (2 - b.exponent).toNat * Nat.pow 10 exponent.toNat
  let low := i.mid * num / den
  let rest := i.mid * num % den
  match i.holds num den low, i.holds num den (low + 1) with
  | true, true =>
    if 2 * rest < den then some low
    else if den < 2 * rest then some (low + 1)
    else match tie with
      | .up => some (low + 1)
      | .toEven => some (if low % 2 = 0 then low else low + 1)
  | true, false => some low
  | false, true => some (low + 1)
  | false, false => none

/-- A power of ten that no number of this size reaches. -/
def Binary.above (b : Binary) : Int :=
  (b.exponent + b.mantissa.log2 + 1) * 30103 / 100000 + 2

/-- The coarsest of `steps` grids from `10 ^ exponent` downwards that meets the interval. -/
def Binary.coarsest (b : Binary) (tie : Tie) : (steps : Nat) → (exponent : Int) → Scaled
  | 0, exponent => ⟨0, exponent⟩
  | steps + 1, exponent =>
    match b.onGrid? tie exponent with
    | some digits => ⟨digits, exponent⟩
    | none => b.coarsest tie steps (exponent - 1)

/-- The shortest decimal for a number; zero is written with the digit zero. -/
def Binary.shortest (b : Binary) (tie : Tie) : Scaled :=
  if b.mantissa = 0 then ⟨0, 0⟩ else b.coarsest tie 24 b.above

example : (Binary.mk 1 (-1074)).shortest .up = ⟨5, -324⟩ := by decide +kernel
example : (Binary.mk 4503599627370498 (-3)).shortest .up = ⟨5629499534213123, -1⟩ := by
  decide +kernel
example : (Binary.mk 4503599627370498 (-3)).shortest .toEven = ⟨5629499534213122, -1⟩ := by
  decide +kernel

end Dataflow.Decimal
