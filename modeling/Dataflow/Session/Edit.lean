import Dataflow.Engine
import Dataflow.Graph.Journal
import Dataflow.Wiring

/-! Changes made within one batch.

Whether ports may be joined is asked of the graph as changed so far, with a table of its own that is
forgotten at every change (`record`). -/

namespace Dataflow

open Memo (Table)

structure Edit where
  graph : Graph
  catalogue : Catalogue
  limit : Nat
  scratch : Table
  /-- The nodes whose answers may be different now. -/
  touched : NodeSet
  /-- The inverses of the changes, the last one at the end. -/
  journal : List Undo

/-- A part of a batch, which may fail. -/
abbrev EditM (α : Type) := ExceptT GraphError (StateM Edit) α

/-- Finds fault with a parameter for a kind of node. -/
def checkParam (type : String) (specs : List ParamSpec) (key : String) (value : ParamValue) :
    Except GraphError Unit :=
  match specs.find? (·.key = key) with
  | none => .error (.invalidParam type key .unknown)
  | some s =>
    if s.kind = value.kind then .ok ()
    else .error (.invalidParam type key (.wrongKind s.kind value.kind))

/-- Checks the parameters that are given, one by one with `checkParam`, and adds the defaults of the
others. -/
def completeParams (type : String) (specs : List ParamSpec) (params : Params) :
    Except GraphError Params := do
  params.toList.forM fun (key, value) => checkParam type specs key value
  return specs.foldl (fun ps s => ps.insertIfNew s.key s.default) params

namespace Edit

def start (graph : Graph) (catalogue : Catalogue) (limit : Nat) : Edit :=
  ⟨graph, catalogue, limit, .empty false, ∅, []⟩

/-- Takes over a changed graph, with the inverse of the change and the nodes it touched. -/
def record (e : Edit) (graph : Graph) (undo : Undo) (nodes : List NodeId) : Edit :=
  { e with
    graph
    scratch := e.scratch.clear
    touched := nodes.foldl (fun s id => s.insert id) e.touched
    journal := e.journal ++ [undo] }

def engine (e : Edit) : Engine := ⟨e.graph, e.catalogue, e.limit⟩

/-- The two ends of connections. -/
def endsOf (cs : List Connection) : List NodeId := cs.flatMap fun c => [c.src.node, c.dest.node]

/-- A node of a known kind gets all the parameters of its kind, any other keeps those given. -/
def addNode (module type : String) (params : Params) : EditM NodeId := do
  let e ← get
  let d := e.catalogue.definition module type
  let params ←
    if e.catalogue.contains module type then completeParams type d.params params else pure params
  let (id, graph) := e.graph.addNode module type params d.ports
  set (e.record graph (.addedNode id) [id])
  return id

def removeNode (id : NodeId) : EditM Node := do
  let e ← get
  let ((n, removed), graph) ← e.graph.removeNode id
  set (e.record graph (.removedNode n removed) (id :: endsOf removed))
  return n

/-- Joins two ports, whichever way round they are given. -/
def connect (p q : PortRef) : EditM Connection := do
  let e ← get
  let (verdict, scratch) := e.engine.perform (Wire.check e.graph p q).run e.scratch
  let e := { e with scratch }
  set e
  match verdict with
  | .error r => throw (.invalidConnection r)
  | .ok w =>
    let (c, graph) ← e.graph.insertConnection w.src w.dest
    set (e.record graph (.addedConnection c.id) (endsOf [c]))
    return c

def disconnect (id : ConnectionId) : EditM Connection := do
  let e ← get
  let (c, graph) ← e.graph.removeConnection id
  set (e.record graph (.removedConnection c) (endsOf [c]))
  return c

def setParam (id : NodeId) (key : String) (value : ParamValue) : EditM Unit := do
  let e ← get
  let n ← e.graph.requireNode id
  if e.catalogue.contains n.module n.type then
    checkParam n.type (e.catalogue.definitionOf n).params key value
  let (previous, graph) ← e.graph.setParam id key value
  set (e.record graph (.setParam id key previous) [id])

end Edit

/-! ## Batches as data -/

/-- A change of the graph. -/
inductive Change where
  | addNode (module type : String) (params : Params)
  | removeNode (id : NodeId)
  | connect (p q : PortRef)
  | disconnect (id : ConnectionId)
  | setParam (id : NodeId) (key : String) (value : ParamValue)
  deriving DecidableEq

/-- What a change gives back. -/
inductive Change.Result where
  | nodeId (id : NodeId)
  | node (n : Node)
  | connection (c : Connection)
  | nothing
  /-- Nodes, connections and the generation. -/
  | sizes (nodes connections generation : Nat)
  deriving DecidableEq

def Change.apply : Change → EditM Change.Result
  | addNode module type params => .nodeId <$> Edit.addNode module type params
  | removeNode id => .node <$> Edit.removeNode id
  | connect p q => .connection <$> Edit.connect p q
  | disconnect id => .connection <$> Edit.disconnect id
  | setParam id key value => (fun _ => .nothing) <$> Edit.setParam id key value

/-- A step of a batch: a change, which may be allowed to fail, or a look at the sizes. -/
inductive Step where
  | change (c : Change) (mayFail : Bool)
  | sizes

/-- The results of the steps up to the first failure that is not allowed, that one included, and
whether there was none. -/
structure Batch where
  results : List (Except GraphError Change.Result)
  failure : Option GraphError

namespace Step

def apply : Step → EditM Change.Result
  | change c _ => c.apply
  | sizes => do
    let g := (← get).graph
    return .sizes g.nodes.size g.connections.size g.generation

def mayFail : Step → Bool
  | change _ b => b
  | sizes => false

def applyAll : List Step → StateM Edit Batch
  | [] => return ⟨[], none⟩
  | s :: ss => do
    let r ← s.apply.run
    match r, s.mayFail with
    | .error failure, false => return ⟨[r], some failure⟩
    | _, _ =>
      let b ← applyAll ss
      return { b with results := r :: b.results }

end Step

end Dataflow
