import Dataflow.Proofs.Graph.Undo

/-! Graphs that are changed again and again, with a journal of what was changed since the last
checkpoint.

Whatever is changed, whatever fails and whatever is taken back, such a graph is well-formed
(`run_wellFormed`); and taking back all that a journal holds gives the graph that it was opened on.
Both are carried through a run by `Keeps`. With counters of a certain width, as `runWrapping` has
them, this is so as long as they stay below it (`RunsInRange`). -/

namespace Dataflow

/-- A change of a graph, whether or not it makes sense of the kinds of its nodes. -/
inductive Mutation where
  | addNode (module type : String) (params : Params) (ports : List PortSpec)
  | removeNode (id : NodeId)
  | setParam (id : NodeId) (key : String) (value : ParamValue)
  | insertConnection (src dest : PortRef)
  | removeConnection (id : ConnectionId)

namespace Graph

/-- The numbers of nodes and connections have 32 bits, the generation has 64. A counter that has
passed its width starts again at zero. -/
def wrapped (g : Graph) : Graph :=
  { g with
    nextNode := g.nextNode % idBound
    nextConnection := g.nextConnection % idBound
    generation := g.generation % countBound }

/-- There are numbers left for a node and for a connection, so that `wrapped` leaves both counters
as they are. -/
def InRange (g : Graph) : Prop := g.nextNode < idBound ∧ g.nextConnection < idBound

instance (g : Graph) : Decidable g.InRange := inferInstanceAs (Decidable (_ ∧ _))

theorem WellFormed.wrapped {g : Graph} (h : g.WellFormed) (hin : g.InRange) :
    g.wrapped.WellFormed where
  node_id := h.node_id
  connection_id := h.connection_id
  ends := h.ends
  incidence := h.incidence
  node_lt hn := (h.node_lt hn).trans_eq (Nat.mod_eq_of_lt hin.1).symm
  connection_lt hc := (h.connection_lt hc).trans_eq (Nat.mod_eq_of_lt hin.2).symm

theorem Rewinds.wrapped {g h : Graph} {us : List Undo} (hg : g.Rewinds h us) :
    g.wrapped.Rewinds h us :=
  (SameTables.foldr_undo (g := g.wrapped) (h := g) ⟨rfl, rfl, rfl⟩ us).trans hg

end Graph

namespace Mutation

/-- The inverse of the change, and what becomes of the graph. -/
def apply (g : Graph) : Mutation → Except GraphError (Undo × Graph)
  | addNode module type params ports =>
    let (id, g) := g.addNode module type params ports
    .ok (.addedNode id, g)
  | removeNode id => do
    let ((n, removed), g) ← g.removeNode id
    return (.removedNode n removed, g)
  | setParam id key value => do
    let (previous, g) ← g.setParam id key value
    return (.setParam id key previous, g)
  | insertConnection src dest => do
    let (c, g) ← g.insertConnection src dest
    return (.addedConnection c.id, g)
  | removeConnection id => do
    let (c, g) ← g.removeConnection id
    return (.removedConnection c, g)

variable {g g' : Graph} {m : Mutation} {u : Undo}

/-- A change keeps a graph well-formed, and its inverse takes it back, up to the counters. -/
theorem undo_apply (hg : g.WellFormed) (h : m.apply g = .ok (u, g')) :
    g'.WellFormed ∧ (g'.undo u).SameTables g := by
  cases m with
  | addNode module type params ports =>
    cases h
    exact ⟨hg.addNode .., Graph.undo_addNode hg ..⟩
  | removeNode id =>
    obtain ⟨⟨⟨n, cs⟩, g₁⟩, hr, h⟩ := bind_ok h
    cases h
    obtain ⟨hn, rfl, rfl⟩ := Graph.removeNode_ok.1 hr
    exact ⟨hg.without id, Graph.undo_removeNode hg hn⟩
  | setParam id key value =>
    obtain ⟨⟨previous, g₁⟩, hr, h⟩ := bind_ok h
    cases h
    obtain ⟨n, hn, rfl, rfl⟩ := Graph.setParam_ok.1 hr
    refine ⟨?_, Graph.undo_setParam hn value⟩
    obtain rfl := hg.node_id hn
    exact hg.replace (n := { n with params := n.params.insert key value }) (by simp [hn])
  | insertConnection src dest =>
    obtain ⟨⟨c, g₁⟩, hr, h⟩ := bind_ok h
    cases h
    obtain ⟨hid, -, -, hg', -⟩ := Graph.insertConnection_ok hr
    exact ⟨hg.insertConnection hr, hg' ▸ Graph.undo_insertConnection hg hid⟩
  | removeConnection id =>
    obtain ⟨⟨c, g₁⟩, hr, h⟩ := bind_ok h
    cases h
    obtain ⟨hc, rfl⟩ := (Graph.removeConnection_ok hg).1 hr
    obtain rfl := hg.connection_id hc
    exact ⟨hg.severed hc, Graph.undo_removeConnection hg hc⟩

end Mutation

/-- A graph, its counters at the last checkpoint, and the inverses of the changes made since. -/
structure Ledger where
  graph : Graph
  checkpoint : Checkpoint
  journal : List Undo

/-- What a graph is made from at first. -/
inductive Origin where
  | nothing
  | parts (nodes : List Node) (connections : List Connection)

def Origin.graph : Origin → Graph
  | nothing => .empty
  | parts nodes connections => .ofParts nodes connections

theorem Origin.wellFormed (o : Origin) : o.graph.WellFormed := by
  cases o with
  | nothing => exact .empty
  | parts nodes connections => exact .ofParts nodes connections

/-- What is done with a graph that has a journal. -/
inductive Deed where
  | mutate (m : Mutation)
  | rebuildIncidence
  /-- Starts a new journal. -/
  | checkpoint
  /-- Takes all changes back that the journal holds. -/
  | rollback

namespace Ledger

def ofGraph (g : Graph) : Ledger := ⟨g, g.checkpoint, []⟩

/-- A change that fails leaves everything as it is, and one that succeeds goes into the journal. -/
def mutate (l : Ledger) (m : Mutation) : Ledger :=
  match m.apply l.graph with
  | .ok (u, g) => { l with graph := g, journal := l.journal ++ [u] }
  | .error _ => l

def rollback (l : Ledger) : Ledger :=
  { l with graph := l.graph.rollback l.checkpoint l.journal, journal := [] }

def act (l : Ledger) : Deed → Ledger
  | .mutate m => l.mutate m
  | .rebuildIncidence => { l with graph := l.graph.rebuildIncidence }
  | .checkpoint => .ofGraph l.graph
  | .rollback => l.rollback

def run (l : Ledger) (deeds : List Deed) : Ledger := deeds.foldl act l

/-- The graph is well-formed, and the journal leads back to a well-formed graph, that of the
checkpoint. After any deed it is so for some graph (`Keeps.act`). -/
structure Keeps (g : Graph) (l : Ledger) : Prop where
  wellFormed : l.graph.WellFormed
  origin : g.WellFormed
  checkpoint : l.checkpoint = g.checkpoint
  rewinds : l.graph.Rewinds g l.journal

variable {g : Graph} {l : Ledger}

theorem keeps_ofGraph (hg : g.WellFormed) : (ofGraph g).Keeps g := ⟨hg, hg, rfl, .nil g⟩

theorem Keeps.rollback (h : l.Keeps g) : l.rollback = ofGraph g := by
  rw [Ledger.rollback, h.checkpoint, h.rewinds.rollback]
  rfl

theorem Keeps.mutate (h : l.Keeps g) (m : Mutation) : (l.mutate m).Keeps g := by
  unfold Ledger.mutate
  cases hm : m.apply l.graph with
  | error failure => exact h
  | ok r =>
    obtain ⟨hg, hu⟩ := Mutation.undo_apply h.wellFormed hm
    exact ⟨hg, h.origin, h.checkpoint, h.rewinds.append hu⟩

theorem Keeps.act (h : l.Keeps g) (d : Deed) : ∃ g', (l.act d).Keeps g' := by
  cases d with
  | mutate m => exact ⟨g, h.mutate m⟩
  | rebuildIncidence =>
    refine ⟨g, ?_⟩
    rw [Ledger.act, h.wellFormed.rebuildIncidence]
    exact h
  | checkpoint => exact ⟨l.graph, keeps_ofGraph h.wellFormed⟩
  | rollback =>
    refine ⟨g, ?_⟩
    rw [Ledger.act, h.rollback]
    exact keeps_ofGraph h.origin

theorem Keeps.run (h : l.Keeps g) (deeds : List Deed) : ∃ g', (l.run deeds).Keeps g' := by
  induction deeds generalizing l g with
  | nil => exact ⟨g, h⟩
  | cons d deeds ih =>
    obtain ⟨g', h'⟩ := h.act d
    exact ih h'

/-- A graph that comes of its origin by any deeds is well-formed, by `Keeps.run`. -/
theorem run_wellFormed (o : Origin) (deeds : List Deed) :
    ((ofGraph o.graph).run deeds).graph.WellFormed := by
  obtain ⟨g, h⟩ := (keeps_ofGraph o.wellFormed).run deeds
  exact h.wellFormed

/-- Whatever has been done with a graph, every entry of a table stands under its own number, both
ends of a connection exist, no number that is given out next is in use, and the connections that are
found for a node, be it there or not, are those of the table that touch it, in the order of their
numbers.

All of this is in `Graph.WellFormed`, or follows from it, and by `run_wellFormed` the graph is that.
-/
theorem tables_consistent (o : Origin) (deeds : List Deed) :
    let g := ((ofGraph o.graph).run deeds).graph
    (∀ (id : NodeId) (n : Node), g.nodes[id]? = some n → n.id = id ∧ id.index < g.nextNode) ∧
      (∀ (k : ConnectionId) (c : Connection), g.connections[k]? = some c →
        c.id = k ∧ k.index < g.nextConnection ∧ g.nodes.contains c.src.node ∧
          g.nodes.contains c.dest.node) ∧
      (∀ module type params ports,
        g.nodes.contains (g.addNode module type params ports).1 = false) ∧
      (∀ src dest c g', g.insertConnection src dest = .ok (c, g') →
        g.connections.contains c.id = false) ∧
      ∀ id, g.connectionsOf id =
          g.connectionList.filter (fun c => c.src.node = id ∨ c.dest.node = id) ∧
        (g.connectionsOf id).Pairwise fun c d => c.id.index < d.id.index := by
  intro g
  have h : g.WellFormed := run_wellFormed o deeds
  have contains {id : NodeId} (hid : (g.node? id).isSome) : g.nodes.contains id := by
    rwa [Std.ExtTreeMap.contains_eq_isSome_getElem?]
  refine ⟨fun id n hn => ⟨h.node_id hn, h.node_lt hn⟩, fun k c hc => ?_, fun _ _ _ _ => ?_,
    fun src dest c g' hc => ?_, fun id => ⟨h.connectionsOf_eq_filter id, h.pairwise_connectionsOf⟩⟩
  · exact ⟨h.connection_id hc, h.connection_lt hc, contains (h.ends hc (.inl rfl)),
      contains (h.ends hc (.inr rfl))⟩
  · rw [Std.ExtTreeMap.contains_eq_isSome_getElem?]
    exact congrArg Option.isSome h.not_node_next
  · rw [Std.ExtTreeMap.contains_eq_isSome_getElem?, (Graph.insertConnection_ok hc).1]
    exact congrArg Option.isSome h.not_connection_next

/-! ## Counters of limited width -/

/-- As `mutate`, but a counter that has passed its width starts again at zero. -/
def mutateWrapping (l : Ledger) (m : Mutation) : Ledger :=
  match m.apply l.graph with
  | .ok (u, g) => { l with graph := g.wrapped, journal := l.journal ++ [u] }
  | .error _ => l

def actWrapping (l : Ledger) : Deed → Ledger
  | .mutate m => l.mutateWrapping m
  | d => l.act d

def runWrapping (l : Ledger) (deeds : List Deed) : Ledger := deeds.foldl actWrapping l

/-- Numbers are not used up on the way. -/
def RunsInRange : Ledger → List Deed → Prop
  | l, [] => l.graph.InRange
  | l, d :: deeds => l.graph.InRange ∧ (l.act d).graph.InRange ∧ (l.actWrapping d).RunsInRange deeds

instance decidableRunsInRange : ∀ (deeds : List Deed) (l : Ledger), Decidable (l.RunsInRange deeds)
  | [], l => inferInstanceAs (Decidable l.graph.InRange)
  | d :: deeds, l =>
    have := decidableRunsInRange deeds (l.actWrapping d)
    inferInstanceAs (Decidable (_ ∧ _ ∧ _))

theorem Keeps.mutateWrapping (h : l.Keeps g) {m : Mutation} (hin : (l.mutate m).graph.InRange) :
    (l.mutateWrapping m).Keeps g := by
  have hm := h.mutate m
  unfold Ledger.mutate at hm hin
  unfold Ledger.mutateWrapping
  cases happly : m.apply l.graph with
  | error failure => exact h
  | ok r =>
    rw [happly] at hm hin
    exact ⟨hm.wellFormed.wrapped hin, hm.origin, hm.checkpoint, hm.rewinds.wrapped⟩

theorem Keeps.actWrapping (h : l.Keeps g) {d : Deed} (hin : (l.act d).graph.InRange) :
    ∃ g', (l.actWrapping d).Keeps g' := by
  cases d with
  | mutate m => exact ⟨g, h.mutateWrapping hin⟩
  | rebuildIncidence => exact h.act .rebuildIncidence
  | checkpoint => exact h.act .checkpoint
  | rollback => exact h.act .rollback

theorem Keeps.runWrapping (h : l.Keeps g) {deeds later : List Deed}
    (hin : l.RunsInRange (deeds ++ later)) :
    (∃ g', (l.runWrapping deeds).Keeps g') ∧ (l.runWrapping deeds).RunsInRange later := by
  induction deeds generalizing l g with
  | nil => exact ⟨⟨g, h⟩, hin⟩
  | cons d deeds ih =>
    obtain ⟨-, hd, hin⟩ := hin
    obtain ⟨g', h'⟩ := h.actWrapping hd
    exact ih h' hin

/-- As long as nothing but changes is made, the journal leads back to where it was begun. -/
theorem Keeps.mutateAll (h : l.Keeps g) {ms : List Mutation}
    (hin : l.RunsInRange (ms.map .mutate)) : (l.runWrapping (ms.map .mutate)).Keeps g := by
  induction ms generalizing l with
  | nil => exact h
  | cons m ms ih => exact ih (h.mutateWrapping hin.2.1) hin.2.2

/-- Whatever has been done with a graph, taking back the journal of all changes that are made of it
from then on gives it back as it was: nodes, connections, incidence and counters. By `undo_apply`
each change is taken back by its inverse, which asks for the number of a new node or connection to
be free; so the counters must not start again at zero. -/
theorem rollback_mutations (o : Origin) (deeds : List Deed) (ms : List Mutation)
    (hin : (ofGraph o.graph).RunsInRange (deeds ++ .checkpoint :: ms.map .mutate)) :
    let g := ((ofGraph o.graph).runWrapping deeds).graph
    let l := (ofGraph g).runWrapping (ms.map .mutate)
    l.graph.rollback g.checkpoint l.journal = g := by
  obtain ⟨⟨g, h⟩, -, -, hms⟩ := (keeps_ofGraph o.wellFormed).runWrapping hin
  exact ((keeps_ofGraph h.wellFormed).mutateAll hms).rewinds.rollback

/-- A change of each kind is taken back, the removal of a node with a loop among them. -/
theorem rollback_all_kinds :
    let add : Mutation := .addNode "Core" "Array" ∅ [.input "input" .duplicate, .output "output"]
    let deeds : List Deed := [.mutate add]
    let ms : List Mutation := [add, .setParam ⟨0⟩ "a" (.boolean true),
      .insertConnection ⟨⟨0⟩, "output", .output, 0⟩ ⟨⟨0⟩, "input", .input, 0⟩,
      .insertConnection ⟨⟨0⟩, "output", .output, 0⟩ ⟨⟨1⟩, "input", .input, 0⟩,
      .removeConnection ⟨1⟩, .removeNode ⟨0⟩]
    let g := ((ofGraph Origin.nothing.graph).runWrapping deeds).graph
    let l := (ofGraph g).runWrapping (ms.map .mutate)
    l.journal.length = 6 ∧ l.graph.rollback g.checkpoint l.journal = g := by
  intro add deeds ms
  exact ⟨by decide +kernel, rollback_mutations .nothing deeds ms (by decide +kernel)⟩

/-- A journal that is not that of the graph may set a counter back to a number in use: this node was
put in after the checkpoint. -/
def setBack : Graph :=
  (Graph.empty.addNode "Core" "Number" ∅ []).2.rollback Graph.empty.checkpoint []

/-- Two nodes, of which one has the last number but one. -/
def nearlyFull : Graph :=
  (Origin.parts [⟨⟨0⟩, "Core", "Number", ∅, []⟩, ⟨⟨idBound - 2⟩, "Core", "Number", ∅, []⟩] []).graph

/-- A number in use is given out again, and with the new node the old one is taken out. -/
theorem rollback_loses_node :
    let add : Deed := .mutate (.addNode "Math" "Add" ∅ [])
    let once := (ofGraph setBack).runWrapping [add]
    let twice := (ofGraph nearlyFull).runWrapping [add, add]
    (once.journal = [.addedNode ⟨0⟩] ∧
        (once.graph.rollback setBack.checkpoint once.journal).node? ⟨0⟩ = none ∧
        (setBack.node? ⟨0⟩).isSome) ∧
      twice.journal = [.addedNode ⟨idBound - 1⟩, .addedNode ⟨0⟩] ∧
        (twice.graph.rollback nearlyFull.checkpoint twice.journal).node? ⟨0⟩ = none ∧
        (nearlyFull.node? ⟨0⟩).isSome := by
  decide +kernel

end Ledger

end Dataflow
