import Dataflow.Graph.Node
import Dataflow.Memo.Key
import Dataflow.ValueType.Basic

/-! Remembered answers, each with the nodes that were read for it.

While an answer is worked out a frame collects what is read: `Table.enter` opens it, and
`Table.finish` files the answer with what it holds. Frames nest, and what an inner one has read
counts for the outer one too. When a node changes, every answer that read it is dropped
(`Table.invalidate`). -/

namespace Dataflow.Memo

inductive Answer where
  | value (v : Value)
  | type (t : ValueType)
  | ports (ps : List Port)
  | connections (cs : List Connection)
  deriving Inhabited

namespace Answer

def value? : Answer → Option Value
  | value v => some v
  | _ => none

def type? : Answer → Option ValueType
  | type t => some t
  | _ => none

def ports? : Answer → Option (List Port)
  | ports ps => some ps
  | _ => none

def connections? : Answer → Option (List Connection)
  | connections cs => some cs
  | _ => none

end Answer

structure Entry where
  answer : Answer
  reads : NodeSet
  deriving Inhabited

/-- What is being worked out: the nodes read so far, and whether a cycle cut it short. -/
structure Frame where
  reads : NodeSet
  cyclic : Bool
  deriving DecidableEq

def Frame.empty : Frame := ⟨∅, false⟩

def Frame.absorb (outer inner : Frame) : Frame :=
  ⟨outer.reads ∪ inner.reads, outer.cyclic || inner.cyclic⟩

structure Statistics where
  hits : Nat
  misses : Nat
  computations : Nat
  invalidations : Nat
  deriving DecidableEq, Repr, Inhabited

/-- The part of all look-ups that found an answer. -/
def Statistics.hitRatio (s : Statistics) : Float32 :=
  if s.hits + s.misses = 0 then 0
  else Float32.ofNat s.hits / Float32.ofNat (s.hits + s.misses)

structure Table where
  entries : Std.ExtTreeMap Key Entry compare
  /-- Nodes that were read for answers which another one has replaced. They still drop the answer
  that took their place. -/
  superseded : Std.ExtTreeMap Key NodeSet compare
  /-- The innermost frame comes first. -/
  frames : List Frame
  statistics : Statistics
  isCounting : Bool
  /-- The generation of the graph that the answers are about. -/
  generation : Nat

namespace Table

def empty (isCounting : Bool) : Table := ⟨∅, ∅, [], ⟨0, 0, 0, 0⟩, isCounting, 0⟩

instance : Inhabited Table := ⟨empty false⟩

def contains (t : Table) (k : Key) : Bool := t.entries.contains k

def statistics? (t : Table) : Option Statistics := if t.isCounting then some t.statistics else none

def count (t : Table) (f : Statistics → Statistics) : Table :=
  if t.isCounting then { t with statistics := f t.statistics } else t

/-- Changes the innermost frame; without a frame nothing is recorded. -/
def onFrame (t : Table) (f : Frame → Frame) : Table :=
  match t.frames with
  | [] => t
  | top :: rest => { t with frames := f top :: rest }

def read (t : Table) (node : NodeId) : Table :=
  t.onFrame fun f => { f with reads := f.reads.insert node }

def readAll (t : Table) (nodes : NodeSet) : Table :=
  t.onFrame fun f => { f with reads := f.reads ∪ nodes }

/-- Notes that what is being worked out was cut short by a cycle. -/
def markCyclic (t : Table) : Table := t.onFrame fun f => { f with cyclic := true }

/-- A remembered answer; what it read is read once more. -/
def lookup (t : Table) (k : Key) : Option Answer × Table :=
  match t.entries[k]? with
  | some e => (some e.answer,
      (t.readAll e.reads).count fun s => { s with hits := s.hits + 1 })
  | none => (none, t.count fun s => { s with misses := s.misses + 1 })

/-- Opens a frame. -/
def enter (t : Table) : Table := { t with frames := .empty :: t.frames }

/-- Closes the innermost frame into the one around it, and returns it. -/
def leave (t : Table) : Frame × Table :=
  match t.frames with
  | [] => (.empty, t)
  | top :: rest => (top, { t with frames := rest }.onFrame (·.absorb top))

/-- Files an answer under a key. What an answer under the same key had read is kept as superseded.
-/
def file (t : Table) (k : Key) (e : Entry) : Table :=
  { t with
    entries := t.entries.insert k e
    superseded :=
      match t.entries[k]? with
      | some old => t.superseded.insert k (t.superseded[k]?.getD ∅ ∪ old.reads)
      | none => t.superseded }

/-- Closes the innermost frame and remembers the answer, unless a cycle cut it short. -/
def finish (t : Table) (k : Key) (a : Answer) : Table :=
  let (frame, t) := t.leave
  let t := t.count fun s => { s with computations := s.computations + 1 }
  if frame.cyclic then t else t.file k ⟨a, frame.reads⟩

/-! ## Dropping answers -/

/-- Whether a change of a node drops the answer under a key: it was read for the answer, or for one
that the answer has replaced. -/
def isReader (t : Table) (node : NodeId) (k : Key) (e : Entry) : Bool :=
  e.reads.contains node || (t.superseded[k]?.getD ∅).contains node

/-- Drops the answers that a change of a node drops, and counts them. A dropped answer takes its
reads with it, also those that it shares with answers it has replaced. -/
def dropReaders (t : Nat × Table) (node : NodeId) : Nat × Table :=
  let dropped := t.2.entries.filter (t.2.isReader node)
  let forgets (k : Key) (n : NodeId) : Bool :=
    n = node || dropped[k]?.any (·.reads.contains n)
  (t.1 + dropped.size, { t.2 with
    entries := t.2.entries.filter fun k e => !t.2.isReader node k e
    superseded := t.2.superseded.map fun k nodes => nodes.filter fun n => !forgets k n })

/-- Drops every answer that read one of the nodes, one node after the other (`dropReaders`), and
returns how many there were. -/
def invalidate (t : Table) (nodes : List NodeId) : Nat × Table :=
  let (n, t) := nodes.foldl dropReaders (0, t)
  (n, t.count fun s => { s with invalidations := s.invalidations + n })

/-- Forgets all answers and frames. The statistics stay. -/
def clear (t : Table) : Table := { t with entries := ∅, superseded := ∅, frames := [] }

def advance (t : Table) (generation : Nat) : Table := { t with generation }

end Table

end Dataflow.Memo
