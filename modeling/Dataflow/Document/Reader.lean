import Dataflow.Document.Basic
import Dataflow.Document.Token

/-! Reading a document from its text. -/

namespace Dataflow.Document

mutual

/-- One document at the front of the tokens. -/
def take : (fuel : Nat) → List Token → Option (Document × List Token)
  | 0, _ => none
  | fuel + 1, ts =>
    match ts with
    | .null :: rest => some (.null, rest)
    | .bool b :: rest => some (.bool b, rest)
    | .number n :: rest => some (.number n, rest)
    | .text s :: rest => some (.text s, rest)
    | .openArray :: .closeArray :: rest => some (.array [], rest)
    | .openArray :: rest => (takeItems fuel rest).map fun (ds, rest) => (.array ds, rest)
    | .openObject :: .closeObject :: rest => some (.object [], rest)
    | .openObject :: rest => (takeFields fuel rest).map fun (fs, rest) => (.object fs, rest)
    | _ => none

/-- One item or more, up to the closing bracket. -/
def takeItems : (fuel : Nat) → List Token → Option (List Document × List Token)
  | 0, _ => none
  | fuel + 1, ts => do
    let (d, rest) ← take fuel ts
    match rest with
    | .comma :: rest => (takeItems fuel rest).map fun (ds, rest) => (d :: ds, rest)
    | .closeArray :: rest => some ([d], rest)
    | _ => none

/-- One field or more, up to the closing brace. -/
def takeFields : (fuel : Nat) → List Token → Option (List (Option String × Document) × List Token)
  | 0, _ => none
  | fuel + 1, ts =>
    match ts with
    | .text k :: .colon :: ts => do
      let (d, rest) ← take fuel ts
      match rest with
      | .comma :: rest => (takeFields fuel rest).map fun (fs, rest) => ((k, d) :: fs, rest)
      | .closeObject :: rest => some ([(k, d)], rest)
      | _ => none
    | _ => none

end

/-- The document that all the tokens make up. Reading one document costs a step for each token,
and one for each item or field besides. -/
def ofTokens? (ts : List Token) : Option Document :=
  match take (2 * ts.length) ts with
  | some (d, []) => some d
  | _ => none

def parse? (s : String) : Option Document := (Token.scan s.toList).bind ofTokens?

end Dataflow.Document
