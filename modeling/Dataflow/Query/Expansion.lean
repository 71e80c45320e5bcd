import Dataflow.Query.Inputs

/-! Iterators and collectors.

A collector finds the iterators that are open between it and its surroundings (`openEntries`), binds
them to every combination of their elements (`expand`), and takes its input once in each
(`collect`). -/

namespace Dataflow.Plan

/-- Goes on with a search at each of some nodes. -/
def visitAll (scope : Scope) (start : NodeSet × List NodeId) (ids : List NodeId) :
    Plan (NodeSet × List NodeId) :=
  ids.foldlM (fun (seen, found) id => query (.visit id scope seen found)) start

/-- The iterators that feed a collector and are still open, those farther from it first. -/
def openEntries (collector : NodeId) (scope : Scope) : Plan (List NodeId) := do
  match ← node? collector with
  | none => return []
  | some n => return (← visitAll scope (NodeSet.ofList [collector], []) (← suppliers n)).2

/-- A combination with the entry bound to each of its elements. -/
def bindEach (entry : NodeId) (locals : Locals) (values : List Value) (sources : NodeSet) :
    List Locals :=
  values.zipIdx.map fun (v, i) => locals.insert entry ⟨v, i, sources⟩

/-- Extends each combination by one entry, whose elements may depend on it; none if there come to be
more than `limit`. Of those made so far `next` holds the last one first, and `count` their number.
-/
def extend (limit : Nat) (scope : Scope) (entry : Node) :
    (count : Nat) → (next : List Locals) → List Locals → Plan (Option (List Locals))
  | _, next, [] => return some next.reverse
  | count, next, locals :: rest => do
    let (values, sources) ← query (.elements entry (scope.child locals))
    let count := count + values.length
    if limit < count then return none
    let here := bindEach entry.id locals values sources
    extend limit scope entry count (here.reverseAux next) rest

/-- All combinations of elements of the entries, the first entry varying slowest, made by `extend`
for one entry after the other. -/
def combinations (limit : Nat) (scope : Scope) :
    List NodeId → List Locals → Plan (Option (List Locals))
  | [], locals => return some locals
  | entry :: entries, locals => do
    match ← node? entry with
    | none => combinations limit scope entries locals
    | some n =>
      match ← extend limit scope n 0 [] locals with
      | none => return none
      | some next => combinations limit scope entries next

/-- One scope for each combination. -/
def expand (entries : List NodeId) (scope : Scope) : Plan (Option (List Scope)) := do
  let limit ← query .limit
  return (← combinations limit scope entries [∅]).map (·.map scope.child)

/-- The input of a collector in every combination. Without an open iterator, or with too many
combinations, it is empty. -/
def collect (collector : NodeId) (scope : Scope) : Plan Value := do
  let entries ← openEntries collector scope
  if entries.isEmpty then return .array []
  match ← expand entries scope with
  | none => return .array []
  | some scopes => return .array (← scopes.mapM (inputValue collector "input"))

end Dataflow.Plan
