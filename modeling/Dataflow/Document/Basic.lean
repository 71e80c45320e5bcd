import Dataflow.Decimal.Layout
import Dataflow.Decimal.Rounded

/-! Documents: nested data as it stands in a text file.

A text or key is `none` where its text has no characters, because an escape in it names half of a
surrogate pair. Numbers are kept as they are written. -/

namespace Dataflow

open Decimal (Numeral)

inductive Document where
  | null
  | bool (b : Bool)
  | number (n : Numeral)
  | text (s : Option String)
  | array (items : List Document)
  | object (fields : List (Option String × Document))
  deriving Repr, Inhabited

namespace Document

def str (s : String) : Document := .text (some s)

def nat (n : Nat) : Document := .number (.ofNat n)

/-- Whole numbers keep a decimal place. A power of ten is written below 10 ^ -5 and from 10 ^ 16
on, and a half goes to the even neighbour. -/
def layout : Decimal.Layout := ⟨.toEven, fun e => -5 ≤ e && e ≤ 15, true⟩

/-- A number that is not finite has no numeral and is written as null. -/
def float (x : Float) : Document :=
  match layout.numeral? x with
  | some n => .number n
  | none => .null

def record (fields : List (String × Document)) : Document :=
  .object (fields.map fun (k, d) => (some k, d))

end Document

end Dataflow
