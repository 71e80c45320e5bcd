import Dataflow.Document.Basic

/-! Taking typed data out of a document.

A decoder is given how many levels of arrays and objects it may still open. What it does not look
at may be nested to any depth. -/

namespace Dataflow.Document

/-! ## Shapes -/

def items? : Document → Option (List Document)
  | array ds => some ds
  | _ => none

/-- The entries of an object in the order they are written, repeated keys included. -/
def entries? : Document → Option (List (String × Document))
  | object fs => fs.mapM fun (k, d) => do return (← k, d)
  | _ => none

/-- The fields of a record with the given names. In an object other names are passed over and none
may come twice; an array holds the fields in order and may stop early. -/
def fields? (names : List String) : Document → Option (List (String × Document))
  | array ds => if ds.length ≤ names.length then some (names.zip ds) else none
  | d => do
    let found := (← d.entries?).filter fun (k, _) => names.contains k
    if (found.map Prod.fst).Nodup then some found else none

/-- One of several alternatives: its name, and what is written beside it. -/
structure Variant where
  name : String
  content : Option Document

/-- A name alone, or an object whose one key is the name. -/
def variant? : Document → Option Variant
  | text s => do return ⟨← s, none⟩
  | object [(k, d)] => do return ⟨← k, some d⟩
  | _ => none

/-- An alternative without content may still be given null. -/
def Variant.isBare (v : Variant) : Bool :=
  match v.content with
  | none => true
  | some null => true
  | some _ => false

/-! ## Decoders -/

abbrev Decoder (α : Type) := (depth : Nat) → Document → Option α

namespace Decoder

/-- A document may open this many levels. -/
def maxDepth : Nat := 127

variable {α : Type}

def run (decode : Decoder α) (d : Document) : Option α := decode maxDepth d

def text : Decoder String
  | _, .text s => s
  | _, _ => none

def bool : Decoder Bool
  | _, .bool b => some b
  | _, _ => none

def nat (bound : Nat) : Decoder Nat
  | _, .number n => n.toNat? bound
  | _, _ => none

def float : Decoder Float
  | _, .number n => n.toFloat?
  | _, _ => none

def option (decode : Decoder α) : Decoder (Option α)
  | _, .null => some none
  | depth, d => (decode depth d).map some

def list (decode : Decoder α) : Decoder (List α)
  | 0, _ => none
  | depth + 1, d => do (← d.items?).mapM (decode depth)

def entries (decode : Decoder α) : Decoder (List (String × α))
  | 0, _ => none
  | depth + 1, d => do (← d.entries?).mapM fun (k, d) => do return (k, ← decode depth d)

/-- A name from a list, as an alternative without content. -/
def name (values : List (String × α)) : Decoder α
  | depth, d => do
    let v ← d.variant?
    if v.isBare && (v.content.isNone || depth ≠ 0) then values.lookup v.name else none

/-- A record: `build` is given the levels left and the fields found. -/
def record (names : List String) (build : Nat → List (String × Document) → Option α) : Decoder α
  | 0, _ => none
  | depth + 1, d => do build depth (← d.fields? names)

/-- A field that must be there. -/
def required (decode : Decoder α) (name : String) (depth : Nat)
    (fields : List (String × Document)) : Option α :=
  (fields.lookup name).bind (decode depth)

/-- A field that has a value of its own where it is left out. -/
def defaulted (decode : Decoder α) (value : α) (name : String) (depth : Nat)
    (fields : List (String × Document)) : Option α :=
  match fields.lookup name with
  | some d => decode depth d
  | none => some value

end Decoder

end Dataflow.Document
