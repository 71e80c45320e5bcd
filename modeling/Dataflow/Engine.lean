import Dataflow.Catalogue
import Dataflow.Graph.Basic
import Dataflow.Memo.Table

/-! Answering questions about a graph.

Answers about values, types, ports and connections are remembered in a table (`Engine.remember`). A
question that comes up again while it is being worked out is answered by a placeholder, and then
nothing that depended on it is remembered (`Memo.Table.finish`). -/

namespace Dataflow

open Memo (Table Key)

/-- A graph, the kinds of nodes in it, and how many combinations a collector may have. -/
structure Engine where
  graph : Graph
  catalogue : Catalogue
  limit : Nat

namespace Engine

/-- Work on a table that may be given up, when `Engine.answer` is not allowed to go deep enough. -/
abbrev Work := StateT Table Option

def definition (e : Engine) (n : Node) : NodeDefinition := e.catalogue.definitionOf n

/-! ## How each question is worked out -/

def portsOfSpec (n : Node) (s : PortSpec) : Plan (List Port) := do
  let slots ← match s.mode with
    | .duplicate => do
      let conns ← Plan.connectionsInto n.id s.key
      let taken := (conns.filter (·.dest.role = s.role)).map (·.dest.slot)
      pure (Std.ExtTreeSet.ofList (leastFree taken :: taken) compare).toList
    | .single | .multiple => pure [0]
  return slots.map fun slot => ⟨n.id, s.key, s.role, s.mode, slot⟩

/-- The ports that a node shows. A row of duplicates, as a group of mode `PortMode.duplicate` is
called, shows the slots that are taken and the least free one. -/
def portsPlan (n : Node) : Plan (List Port) := return (← n.ports.mapM (portsOfSpec n)).flatten

def valuePlan (e : Engine) (id : NodeId) (scope : Scope) (key : String) : Plan Value := do
  match ← Plan.node? id with
  | some n => (e.definition n).value n scope key
  | none => return .nothing

def missing (id : NodeId) : ValueType := .mismatch (GraphError.nodeNotFound id).message

def outputTypePlan (e : Engine) (id : NodeId) (key : String) (context : Context) :
    Plan ValueType := do
  match ← Plan.node? id with
  | some n => (e.definition n).outputType n key context
  | none => return missing id

/-- What a node delivers. The node itself counts as unresolved, being provisional in the context,
while its consumers are asked. -/
def deliveredTypePlan (e : Engine) (id : NodeId) (key : String) (context : Context) :
    Plan ValueType := do
  let inner := context.withProvisional id
  let produced ← Plan.outputType id key inner
  let conns ← Plan.connectionsFrom id key
  let expected ← conns.mapM fun c => Plan.expectedType c.dest.node c.dest.key inner
  return .deliver e.catalogue.kinds produced (.unifyAll expected)

def expectedTypePlan (e : Engine) (id : NodeId) (key : String) (context : Context) :
    Plan ValueType := do
  match ← Plan.node? id with
  | none => return missing id
  | some n =>
    match ← (e.definition n).inputType n key context with
    | some t => return t
    | none =>
      return .mismatch s!"connection target {n.label} is missing input key {key}"

/-- A step of a search for open iterators. A collector ends the search; an iterator that is not
bound yet comes after those before it. -/
def visitPlan (e : Engine) (id : NodeId) (scope : Scope) (seen : NodeSet) (found : List NodeId) :
    Plan (NodeSet × List NodeId) := do
  if seen.contains id then return (seen, found)
  let seen := seen.insert id
  match ← Plan.node? id with
  | none => return (seen, found)
  | some n =>
    let d := e.definition n
    if d.isCollector then return (seen, found)
    let (seen, found) ← Plan.visitAll scope (seen, found) (← Plan.suppliers n)
    return (seen, if d.isIterator && !scope.isBound id then found ++ [id] else found)

/-! ## Remembering -/

/-- Answers from the table, or else works the answer out and remembers it. `working` holds the keys
that are being worked out already; one of them gives `onCycle`. -/
def remember {α : Type} (key : Key) (onCycle : α) (wrap : α → Memo.Answer)
    (unwrap : Memo.Answer → Option α) (working : List Key) (work : List Key → Work α) : Work α :=
  fun t =>
    let (found, t) := t.lookup key
    match found.bind unwrap with
    | some a => some (a, t)
    | none =>
      if key ∈ working then some (onCycle, t.markCyclic)
      else do
        let (a, t) ← work (key :: working) (t.enter.read key.node)
        return (a, t.finish key (wrap a))

/-- Answers a question, going at most `depth` questions deep. -/
def answer (e : Engine) : (depth : Nat) → (working : List Key) → (q : Query) → Work q.Answer
  | 0, _, _ => failure
  | depth + 1, working, q =>
    match q with
    | .node id => fun t => some (e.graph.node? id, t.read id)
    | .bound id scope => fun t =>
      match scope.lookup id with
      | some l => some (some l, t.readAll l.sources)
      | none => some (none, t)
    | .connectionsInto id key =>
      remember (.inScope .connections id [] ("into:" ++ key)) [] .connections
        Memo.Answer.connections? working fun _ => pure (e.graph.connectionsInto id key)
    | .connectionsFrom id key =>
      remember (.inScope .connections id [] ("from:" ++ key)) [] .connections
        Memo.Answer.connections? working fun _ => pure (e.graph.connectionsFrom id key)
    | .ports id => fun t =>
      match e.graph.node? id with
      | none => some (none, t.read id)
      | some n =>
        (some <$> remember (.inScope .ports id [] "") [] .ports Memo.Answer.ports? working
          fun working => (portsPlan n).run (e.answer depth working)) (t.read id)
    | .value id scope key =>
      remember (.inScope .value id scope.key key) .nothing .value Memo.Answer.value? working
        fun working => (e.valuePlan id scope key).run (e.answer depth working)
    | .outputType id key context =>
      remember (.inContext .outputType id context.key key) (.mismatch "cycle") .type
        Memo.Answer.type? working
        fun working => (e.outputTypePlan id key context).run (e.answer depth working)
    | .deliveredType id key context =>
      match context.provisional? id with
      | some t => pure t
      | none =>
        remember (.inContext .deliveredType id context.key key) (.mismatch "cycle") .type
          Memo.Answer.type? working
          fun working => (e.deliveredTypePlan id key context).run (e.answer depth working)
    | .expectedType id key context =>
      (e.expectedTypePlan id key context).run (e.answer depth working)
    | .emptyValue type => pure (type.emptyValue e.catalogue.kinds)
    | .visit id scope seen found =>
      (e.visitPlan id scope seen found).run (e.answer depth working)
    | .elements iterator scope => fun t => do
      let plan := (e.definition iterator).elements iterator scope
      let (values, t) ← plan.run (e.answer depth working) t.enter
      let (frame, t) := t.leave
      return ((values, frame.reads), t)
    | .limit => pure e.limit

/-! ## How deep a question goes -/

/-- No fewer than the nodes that answers of a graph can be about. -/
def nodeBound (g : Graph) : Nat := g.nodes.size + 2 * g.connections.size + 3

/-- No fewer than the keys that can be asked at a node. -/
def keyBound (g : Graph) : Nat :=
  2 * g.connections.size + g.nodeList.foldl (fun k n => k + n.ports.length) 8

/-- Within one scope or context the keys being worked out are distinct, and a scope or context
inside another names one node more. That this is deep enough for every question is
`Engine.run_depth`. -/
def depth (g : Graph) : Nat := 8 * nodeBound g * (nodeBound g * keyBound g + 1)

/-- Goes deeper until there is an answer. What is found is what `Engine.answer` gives at any depth
that is enough (`Engine.search_eq_some`). -/
def search (e : Engine) (depth : Nat) (q : Query) (t : Table) : Option (q.Answer × Table) :=
  let found := e.answer depth [] q t
  if found.isSome then found else e |>.search (2 * depth + 1) q t
partial_fixpoint

/-- Answers a question with what is remembered; without an answer it is left at `Query.silence`. -/
def ask (e : Engine) (q : Query) : StateM Table q.Answer := fun t =>
  (e.search (depth e.graph) q t).getD (q.silence, t)

/-- Carries out a plan on what is remembered. -/
def perform {α : Type} (e : Engine) (p : Plan α) : StateM Table α := p.run e.ask

end Engine

end Dataflow
