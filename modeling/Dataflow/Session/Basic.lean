import Dataflow.Config.Basic
import Dataflow.Session.Edit
import Dataflow.Snapshot.Basic
import Dataflow.Typing

/-! A session: a graph with what is remembered about it.

Every batch of changes takes effect as a whole or not at all. When it does (`commit`), the version
counts up and the answers that read a touched node are dropped. The version has sixty-four bits:
after the last one it starts again at zero. -/

namespace Dataflow

open Memo (Table Key)

structure Session where
  config : Config
  graph : Graph
  catalogue : Catalogue
  table : Table
  version : Nat
  /-- The port that is being dragged. -/
  pending : Option PortRef

namespace Session

def start (config : Config) (catalogue : Catalogue) : Session :=
  ⟨config, .empty, catalogue, .empty config.tracksStatistics, 0, none⟩

def engine (s : Session) : Engine := ⟨s.graph, s.catalogue, s.config.limit⟩

/-- Adds a module. All that is remembered may rest on the old ones and is forgotten. -/
def register (s : Session) (name : String) (m : Module) : Session :=
  { s with catalogue := s.catalogue.register name m, table := s.table.clear }

/-- Lets go of a dragged port whose node is gone. -/
def releasePending (s : Session) : Session :=
  { s with pending := s.pending.filter fun p => s.graph.nodes.contains p.node }

/-! ## Changes -/

def openEdit (s : Session) : Edit := .start s.graph s.catalogue s.config.limit

/-- Keeps the changes of a batch. One that touched nothing leaves the session as it is. The version
is counted below `countBound`. -/
def commit (s : Session) (e : Edit) : Session :=
  let s := { s with graph := e.graph }
  if e.touched.isEmpty then s
  else
    releasePending { s with
      table := (s.table.invalidate e.touched.toList).2.advance e.graph.generation
      version := (s.version + 1) % countBound }

/-- Takes the changes of a batch back, with `Graph.rollback`. -/
def abandon (s : Session) (e : Edit) : Session :=
  { s with graph := e.graph.rollback s.graph.checkpoint e.journal }

/-- Makes changes as one batch. -/
def edit {α : Type} (changes : EditM α) : StateM Session (Except GraphError α) := fun s =>
  match changes.run s.openEdit with
  | (.ok a, e) => (.ok a, s.commit e)
  | (.error failure, e) => (.error failure, s.abandon e)

/-- Makes the changes of all steps as one batch. -/
def editAll (steps : List Step) : StateM Session Batch := fun s =>
  let (b, e) := Step.applyAll steps s.openEdit
  (b, if b.failure.isNone then s.commit e else s.abandon e)

def addNode (module type : String) (params : Params) : StateM Session (Except GraphError NodeId) :=
  edit (Edit.addNode module type params)

def removeNode (id : NodeId) : StateM Session (Except GraphError Node) := edit (Edit.removeNode id)

def connect (p q : PortRef) : StateM Session (Except GraphError Connection) :=
  edit (Edit.connect p q)

def disconnect (id : ConnectionId) : StateM Session (Except GraphError Connection) :=
  edit (Edit.disconnect id)

def setParam (id : NodeId) (key : String) (value : ParamValue) :
    StateM Session (Except GraphError Unit) :=
  edit (Edit.setParam id key value)

def setPending (p : Option PortRef) : StateM Session Unit := modify fun s => { s with pending := p }

/-! ## Questions -/

/-- Carries out a plan on the graph of the session. -/
def perform {α : Type} (p : Plan α) : StateM Session α := fun s =>
  let (a, table) := s.engine.perform p s.table
  (a, { s with table })

/-- Carries out a plan about a node that has to exist. -/
def performAt {α : Type} (id : NodeId) (p : Plan α) : StateM Session (Except GraphError α) := do
  match (← get).graph.requireNode id with
  | .error failure => return .error failure
  | .ok _ => return .ok (← perform p)

def valueAt (id : NodeId) (key : String) : StateM Session (Except GraphError Value) :=
  performAt id (Plan.value id (.root .root) key)

def deliveredType (id : NodeId) (key : String) : StateM Session (Except GraphError ValueType) :=
  performAt id (Plan.deliveredType id key .root)

def expectedType (id : NodeId) (key : String) : StateM Session (Except GraphError ValueType) :=
  performAt id (Plan.expectedType id key .root)

def typing : StateM Session Typing := do
  let s ← get
  perform (Typing.check s.catalogue s.graph)

def invalidConnections : StateM Session (List (Connection × Rejection)) := do
  perform (← get).graph.invalidConnections

def ancestors (s : Session) (id : NodeId) : Except GraphError NodeSet := do
  let _ ← s.graph.requireNode id
  return s.graph.upstream [id]

def descendants (s : Session) (id : NodeId) : Except GraphError NodeSet := do
  let _ ← s.graph.requireNode id
  return s.graph.downstream [id]

def ports (id : NodeId) : StateM Session (Except GraphError (List Port)) := do
  match ← perform (Plan.query (.ports id)) with
  | some ps => return .ok ps
  | none => return .error (.nodeNotFound id)

def port (p : PortRef) : StateM Session (Except GraphError Port) := perform (Plan.port p)

/-- The connections at a port. In a row of duplicates each slot has only its own, while any other
port has all those of its group. -/
def connectionsPlan (p : PortRef) : Plan (Except GraphError (List Connection)) := do
  match ← Plan.port p with
  | .error failure => return .error failure
  | .ok port =>
    let conns ← if p.role.isSource then Plan.connectionsFrom p.node p.key
      else Plan.connectionsInto p.node p.key
    return .ok <| conns.filter fun c =>
      let tip := if p.role.isSource then c.src else c.dest
      tip.role == p.role && (port.mode ≠ .duplicate || tip.slot == p.slot)

def connectionsAt (p : PortRef) : StateM Session (Except GraphError (List Connection)) :=
  perform (connectionsPlan p)

def check (p q : PortRef) : StateM Session (Except Rejection Wire) := do
  perform (Wire.check (← get).graph p q).run

def portState (p : PortRef) : StateM Session PortState := do
  let s ← get
  perform (PortState.ofPort s.graph s.pending p)

/-! ## Snapshots -/

def snapshot (s : Session) : Snapshot := .capture s.config.name s.version s.graph

/-- Takes over a snapshot if it is newer, and tells whether it was. -/
def load (snapshot : Snapshot) : StateM Session Bool := fun s =>
  if snapshot.version ≤ s.version then (false, s)
  else
    let graph := snapshot.toGraph
    (true, releasePending { s with
      config := { s.config with name := snapshot.name }
      graph
      table := s.table.clear.advance graph.generation
      version := snapshot.version })

end Session

end Dataflow
