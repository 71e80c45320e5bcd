import Dataflow.Graph.Error

/-! The graph: nodes and connections under their numbers.

Beside the two tables stands the incidence, the pairs of a node and a connection that touches it,
from which the connections of a node are found. Every change counts up the generation. The counters
have no bound here: `Graph.wrapped` is what they come to in their widths, and the same as long as
they are `Graph.InRange`. -/

namespace Dataflow

/-- A node and a connection that touches it. -/
structure Incidence where
  node : NodeId
  connection : ConnectionId
  deriving DecidableEq, Repr

namespace Incidence

instance : Ord Incidence := ⟨compareLex (compareOn node) (compareOn connection)⟩

instance : Std.TransOrd Incidence :=
  inferInstanceAs (Std.TransCmp (compareLex (compareOn node) (compareOn connection)))

instance : Std.LawfulEqOrd Incidence where
  eq_of_compare {a b} h := by
    cases a; cases b
    obtain ⟨h₁, h₂⟩ := compareLex_eq_eq.1 h
    exact congr (congrArg mk (Std.LawfulEqOrd.eq_of_compare h₁))
      (Std.LawfulEqOrd.eq_of_compare h₂)

end Incidence

abbrev NodeTable := Std.ExtTreeMap NodeId Node compare
abbrev ConnectionTable := Std.ExtTreeMap ConnectionId Connection compare
abbrev IncidenceSet := Std.ExtTreeSet Incidence compare

/-- A connection at both its ends. -/
def IncidenceSet.attach (s : IncidenceSet) (c : Connection) : IncidenceSet :=
  (s.insert ⟨c.src.node, c.id⟩).insert ⟨c.dest.node, c.id⟩

def IncidenceSet.detach (s : IncidenceSet) (c : Connection) : IncidenceSet :=
  (s.erase ⟨c.src.node, c.id⟩).erase ⟨c.dest.node, c.id⟩

/-- Forgets all that touches a node. -/
def IncidenceSet.eraseNode (s : IncidenceSet) (id : NodeId) : IncidenceSet :=
  s.filter fun i => i.node ≠ id

namespace IncidenceSet

theorem mem_attach {s : IncidenceSet} {c : Connection} {i : Incidence} :
    i ∈ s.attach c ↔ i = ⟨c.dest.node, c.id⟩ ∨ i = ⟨c.src.node, c.id⟩ ∨ i ∈ s := by
  simp only [attach, Std.ExtTreeSet.mem_insert, Std.LawfulEqCmp.compare_eq_iff_eq, @eq_comm _ i]

theorem mem_detach {s : IncidenceSet} {c : Connection} {i : Incidence} :
    i ∈ s.detach c ↔ i ≠ ⟨c.dest.node, c.id⟩ ∧ i ≠ ⟨c.src.node, c.id⟩ ∧ i ∈ s := by
  simp only [detach, Std.ExtTreeSet.mem_erase, ne_eq, Std.LawfulEqCmp.compare_eq_iff_eq,
    @eq_comm _ i]

theorem mem_eraseNode {s : IncidenceSet} {id : NodeId} {i : Incidence} :
    i ∈ s.eraseNode id ↔ i.node ≠ id ∧ i ∈ s := by
  simp [eraseNode, Std.ExtTreeSet.mem_filter, and_comm]

end IncidenceSet

structure Graph where
  nodes : NodeTable
  connections : ConnectionTable
  incidence : IncidenceSet
  nextNode : Nat
  nextConnection : Nat
  generation : Nat
  deriving DecidableEq

namespace Graph

def empty : Graph := ⟨∅, ∅, ∅, 0, 0, 0⟩

instance : Inhabited Graph := ⟨empty⟩

def node? (g : Graph) (id : NodeId) : Option Node := g.nodes[id]?

def connection? (g : Graph) (id : ConnectionId) : Option Connection := g.connections[id]?

def nodeList (g : Graph) : List Node := g.nodes.values

def connectionList (g : Graph) : List Connection := g.connections.values

/-- The connections that the incidence gives for a node, in the order of their numbers. -/
def connectionsOf (g : Graph) (id : NodeId) : List Connection :=
  (g.incidence.toList.filter (·.node = id)).filterMap fun i => g.connections[i.connection]?

theorem mem_connectionsOf {g : Graph} {id : NodeId} {c : Connection} :
    c ∈ g.connectionsOf id ↔ ∃ k, ⟨id, k⟩ ∈ g.incidence ∧ g.connection? k = some c := by
  simp only [connectionsOf, List.mem_filterMap, List.mem_filter, Std.ExtTreeSet.mem_toList,
    decide_eq_true_eq, connection?]
  constructor
  · rintro ⟨⟨n, k⟩, ⟨h, rfl⟩, hc⟩
    exact ⟨k, h, hc⟩
  · rintro ⟨k, h, hc⟩
    exact ⟨⟨id, k⟩, ⟨h, rfl⟩, hc⟩

/-- Whether one connection comes before another at a port: by slot, then by number. -/
def slotLe (c d : Connection) : Bool :=
  c.dest.slot < d.dest.slot || (c.dest.slot == d.dest.slot && c.id.index ≤ d.id.index)

def insertBySlot (c : Connection) : List Connection → List Connection
  | [] => [c]
  | d :: ds => if slotLe c d then c :: d :: ds else d :: insertBySlot c ds

def sortBySlot (cs : List Connection) : List Connection := cs.foldr insertBySlot []

theorem insertBySlot_perm (c : Connection) (cs : List Connection) :
    (insertBySlot c cs).Perm (c :: cs) := by
  induction cs with
  | nil => exact .refl _
  | cons d ds ih =>
    rw [insertBySlot]
    split
    · exact .refl _
    · exact (ih.cons d).trans (.swap c d ds)

theorem sortBySlot_perm (cs : List Connection) : (sortBySlot cs).Perm cs := by
  induction cs with
  | nil => exact .refl _
  | cons c cs ih => exact (insertBySlot_perm c _).trans (ih.cons c)

/-- The connections that end at a key of a node, by slot. -/
def connectionsInto (g : Graph) (id : NodeId) (key : String) : List Connection :=
  sortBySlot ((g.connectionsOf id).filter fun c => c.dest.node = id ∧ c.dest.key = key)

/-- The connections that start at a key of a node, by number. -/
def connectionsFrom (g : Graph) (id : NodeId) (key : String) : List Connection :=
  (g.connectionsOf id).filter fun c => c.src.node = id ∧ c.src.key = key

theorem mem_connectionsInto {g : Graph} {id : NodeId} {key : String} {c : Connection} :
    c ∈ g.connectionsInto id key ↔
      c ∈ g.connectionsOf id ∧ c.dest.node = id ∧ c.dest.key = key := by
  simp [connectionsInto, (sortBySlot_perm _).mem_iff]

theorem mem_connectionsFrom {g : Graph} {id : NodeId} {key : String} {c : Connection} :
    c ∈ g.connectionsFrom id key ↔
      c ∈ g.connectionsOf id ∧ c.src.node = id ∧ c.src.key = key := by
  simp [connectionsFrom]

/-- The nodes that feed a node directly, once for each connection. -/
def suppliers (g : Graph) (id : NodeId) : List NodeId :=
  ((g.connectionsOf id).filter (·.dest.node = id)).map (·.src.node)

/-- The nodes that a node feeds directly, once for each connection. -/
def consumers (g : Graph) (id : NodeId) : List NodeId :=
  ((g.connectionsOf id).filter (·.src.node = id)).map (·.dest.node)

def requireNode (g : Graph) (id : NodeId) : Except GraphError Node :=
  match g.node? id with
  | some n => .ok n
  | none => .error (.nodeNotFound id)

/-- The group that a reference names, whatever its slot. -/
def resolve (g : Graph) (p : PortRef) : Except GraphError PortSpec := do
  match (← g.requireNode p.node).port? p.key p.role with
  | some s => .ok s
  | none => .error (.portNotFound p.node p.key p.role)

/-! ## Changes -/

def addNode (g : Graph) (module type : String) (params : Params) (ports : List PortSpec) :
    NodeId × Graph :=
  let id : NodeId := ⟨g.nextNode⟩
  (id, { g with
    nodes := g.nodes.insert id ⟨id, module, type, params, ports⟩
    nextNode := g.nextNode + 1
    generation := g.generation + 1 })

/-- The other end of a connection that touches a node. -/
def otherEnd (c : Connection) (id : NodeId) : NodeId :=
  if c.src.node = id then c.dest.node else c.src.node

/-- Removes a node and all connections that touch it; both are returned. -/
def removeNode (g : Graph) (id : NodeId) :
    Except GraphError ((Node × List Connection) × Graph) := do
  let n ← g.requireNode id
  let removed := g.connectionsOf id
  return ((n, removed), { g with
    nodes := g.nodes.erase id
    connections := removed.foldl (fun t c => t.erase c.id) g.connections
    incidence := removed.foldl (fun s c => s.erase ⟨otherEnd c id, c.id⟩)
      (g.incidence.eraseNode id)
    generation := g.generation + 1 })

/-- Sets a parameter and returns its previous value. -/
def setParam (g : Graph) (id : NodeId) (key : String) (value : ParamValue) :
    Except GraphError (Option ParamValue × Graph) := do
  let n ← g.requireNode id
  return (n.params[key]?, { g with
    nodes := g.nodes.insert id { n with params := n.params.insert key value }
    generation := g.generation + 1 })

/-- The slots that are taken at the group of a destination, in the sense of `PortRef.sameGroup`. -/
def takenSlots (g : Graph) (dest : PortRef) : List Nat :=
  ((g.connectionsInto dest.node dest.key).filter (·.dest.role = dest.role)).map (·.dest.slot)

/-- Where a new connection ends: a single port has slot zero, at any other the wanted slot is kept
if it is free, and else the least free one is taken (`leastFree`). -/
def assignSlot (g : Graph) (mode : PortMode) (dest : PortRef) : PortRef :=
  match mode with
  | .single => { dest with slot := 0 }
  | .multiple | .duplicate =>
    let taken := g.takenSlots dest
    if dest.slot ∈ taken then { dest with slot := leastFree taken } else dest

/-- Adds a connection between declared ports. Whether it is allowed is not asked here. -/
def insertConnection (g : Graph) (src dest : PortRef) : Except GraphError (Connection × Graph) := do
  let _ ← g.resolve src
  let spec ← g.resolve dest
  let c : Connection := ⟨⟨g.nextConnection⟩, src, g.assignSlot spec.mode dest⟩
  return (c, { g with
    connections := g.connections.insert c.id c
    incidence := g.incidence.attach c
    nextConnection := g.nextConnection + 1
    generation := g.generation + 1 })

def removeConnection (g : Graph) (id : ConnectionId) : Except GraphError (Connection × Graph) :=
  match g.connection? id with
  | none => .error (.connectionNotFound id)
  | some c => .ok (c, { g with
      connections := g.connections.erase id
      incidence := g.incidence.detach c
      generation := g.generation + 1 })

/-! ## Building a graph from its parts -/

/-- The incidence of all connections of a table. -/
def incidenceOf (t : ConnectionTable) : IncidenceSet :=
  t.values.foldl IncidenceSet.attach ∅

def rebuildIncidence (g : Graph) : Graph := { g with incidence := incidenceOf g.connections }

/-- The next number after those given. -/
def nextAfter (indices : List Nat) : Nat := indices.foldl (fun n i => max n (i + 1)) 0

/-- Of two nodes with one number the later counts. A connection counts only if both its ends are
nodes of the graph, but its number is not given out again in any case: `nextConnection` goes past
it. -/
def ofParts (nodes : List Node) (connections : List Connection) : Graph :=
  let table := nodes.foldl (fun (t : NodeTable) n => t.insert n.id n) ∅
  let kept := connections.filter fun c => table.contains c.src.node && table.contains c.dest.node
  let conns := kept.foldl (fun (t : ConnectionTable) c => t.insert c.id c) ∅
  { nodes := table
    connections := conns
    incidence := incidenceOf conns
    nextNode := nextAfter (nodes.map (·.id.index))
    nextConnection := nextAfter (connections.map (·.id.index))
    generation := 0 }

end Graph

end Dataflow
