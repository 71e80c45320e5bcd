import Dataflow.Decimal.Numeral
import Dataflow.Decimal.Shortest

/-! How the shortest decimal of a number is laid out. -/

namespace Dataflow.Decimal

/-- The choices of a number format. -/
structure Layout where
  tie : Tie
  /-- The exponents of the leading digit that are written without a power of ten. -/
  isPositional : Int → Bool
  /-- Whether a whole number keeps one decimal place. -/
  keepsPoint : Bool

namespace Scaled

/-- The exponent of the leading digit. -/
def leading (s : Scaled) : Int := s.exponent + (digitsOf s.digits).length - 1

def positional (s : Scaled) (negative keepsPoint : Bool) : Numeral :=
  let ds := digitsOf s.digits
  let places := (-s.exponent).toNat
  let zero : Digit := ⟨0, by decide⟩
  if 0 ≤ s.exponent then
    ⟨negative, ds ++ List.replicate s.exponent.toNat zero,
      if keepsPoint then some [zero] else none, none⟩
  else if ds.length ≤ places then
    ⟨negative, [zero], some (List.replicate (places - ds.length) zero ++ ds), none⟩
  else
    ⟨negative, ds.take (ds.length - places), some (ds.drop (ds.length - places)), none⟩

def scientific (s : Scaled) (negative : Bool) : Numeral :=
  let ds := digitsOf s.digits
  let rest := ds.drop 1
  ⟨negative, ds.take 1, if rest.isEmpty then none else some rest,
    some (s.leading < 0, digitsOf s.leading.natAbs)⟩

end Scaled

namespace Layout

def ofBinary (l : Layout) (negative : Bool) (b : Binary) : Numeral :=
  let s := b.shortest l.tie
  if l.isPositional s.leading then s.positional negative l.keepsPoint else s.scientific negative

/-- The numeral of a finite number; an infinity or a number that is undefined has none. -/
def numeral? (l : Layout) (x : Float) : Option Numeral :=
  match magnitude x with
  | .finite b => some (l.ofBinary (isNegative x) b)
  | _ => none

end Layout

end Dataflow.Decimal
