/-! Written numbers: a sign, digits before the point, digits after it, and a power of ten. -/

namespace Dataflow.Decimal

abbrev Digit := Fin 10

def Digit.char (d : Digit) : Char := Nat.digitChar d.val

def Digit.ofChar? (c : Char) : Option Digit :=
  if c.isDigit then some (Fin.ofNat 10 (c.toNat - '0'.toNat)) else none

theorem Digit.ofChar?_char (d : Digit) : Digit.ofChar? d.char = some d := by
  revert d; decide

def Digit.text (ds : List Digit) : List Char := ds.map Digit.char

/-- The number that digits write, most significant first. -/
def valueOf (ds : List Digit) : Nat := ds.foldl (fun n d => n * 10 + d.val) 0

/-- The digits of a number, without leading zeros; zero has one digit. -/
def digitsOf (n : Nat) : List Digit :=
  (Nat.toDigits 10 n).map fun c => Fin.ofNat 10 (c.toNat - '0'.toNat)

/-- A written number. The exponent keeps whether it is negative; the digits may be any. -/
structure Numeral where
  negative : Bool
  whole : List Digit
  fraction : Option (List Digit)
  exponent : Option (Bool × List Digit)
  deriving DecidableEq, Repr

namespace Numeral

def ofNat (n : Nat) : Numeral := ⟨false, digitsOf n, none, none⟩

/-- The text of a numeral. An exponent always has its sign. -/
def chars (n : Numeral) : List Char :=
  (if n.negative then ['-'] else []) ++ Digit.text n.whole ++
  (match n.fraction with
    | none => []
    | some ds => '.' :: Digit.text ds) ++
  (match n.exponent with
    | none => []
    | some (negative, ds) => 'e' :: (if negative then '-' else '+') :: Digit.text ds)

def text (n : Numeral) : String := .ofList n.chars

end Numeral

/-- The leading digits of a text, and what follows them. -/
def takeDigits : List Char → List Digit × List Char
  | [] => ([], [])
  | c :: cs =>
    match Digit.ofChar? c with
    | some d => let (ds, rest) := takeDigits cs; (d :: ds, rest)
    | none => ([], c :: cs)

namespace Numeral

/-- Digits before the point: a zero stands alone. -/
def takeWhole (cs : List Char) : Option (List Digit × List Char) :=
  match cs with
  | '0' :: rest => some ([0], rest)
  | _ =>
    match takeDigits cs with
    | ([], _) => none
    | r => some r

def takeFraction : List Char → Option (Option (List Digit) × List Char)
  | '.' :: cs =>
    match takeDigits cs with
    | ([], _) => none
    | (ds, rest) => some (some ds, rest)
  | cs => some (none, cs)

def takeExponent : List Char → Option (Option (Bool × List Digit) × List Char)
  | c :: cs =>
    if c = 'e' ∨ c = 'E' then
      let (negative, cs) :=
        match cs with
        | '-' :: rest => (true, rest)
        | '+' :: rest => (false, rest)
        | _ => (false, cs)
      match takeDigits cs with
      | ([], _) => none
      | (ds, rest) => some (some (negative, ds), rest)
    else some (none, c :: cs)
  | [] => some (none, [])

/-- Reads one numeral at the front of a text. -/
def take (cs : List Char) : Option (Numeral × List Char) := do
  let (negative, cs) :=
    match cs with
    | '-' :: rest => (true, rest)
    | _ => (false, cs)
  let (whole, cs) ← takeWhole cs
  let (fraction, cs) ← takeFraction cs
  let (exponent, cs) ← takeExponent cs
  return (⟨negative, whole, fraction, exponent⟩, cs)

/-- The integer written by a numeral without point and exponent; minus zero is no integer. -/
def toInt? (n : Numeral) : Option Int :=
  match n.fraction, n.exponent with
  | none, none =>
    let v : Nat := valueOf n.whole
    if n.negative then if v = 0 then none else some (-v) else some v
  | _, _ => none

/-- The natural number below `bound` written by a numeral. -/
def toNat? (n : Numeral) (bound : Nat) : Option Nat :=
  match n.toInt? with
  | some (.ofNat v) => if v < bound then some v else none
  | _ => none

end Numeral

end Dataflow.Decimal
