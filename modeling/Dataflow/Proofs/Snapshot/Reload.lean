import Mathlib.Data.List.Induction
import Dataflow.Proofs.Graph.Ledger
import Dataflow.Snapshot.Basic

/-! What a graph is built from is put in order once: of parts with one number the last one counts,
and connections that lead nowhere are left out.

After that a snapshot gives back the graph it was taken of (`sameTables_ofParts`). -/

namespace Dataflow

/-- What is under a key after a list was entered is the last entry with the key. -/
theorem Tables.getElem?_foldl_insert {α β : Type} {cmp : α → α → Ordering} [Std.TransCmp cmp]
    [Std.LawfulEqCmp cmp] [DecidableEq α] (key : β → α) (vs : List β) (a : α) :
    (vs.foldl (fun (t : Std.ExtTreeMap α β cmp) v => t.insert (key v) v) ∅)[a]? =
      (vs.filter (key · = a)).getLast? := by
  induction vs using List.reverseRecOn with
  | nil => simp
  | append_singleton vs v ih =>
    rw [List.foldl_append, List.foldl_cons, List.foldl_nil, getElem?_insert, ih, List.filter_append,
      List.getLast?_append]
    by_cases h : key v = a
    · simp [h]
    · simp [h, Ne.symm h]

namespace Graph

variable {g g' : Graph} {nodes : List Node} {connections : List Connection} {id : NodeId}
  {k : ConnectionId} {c : Connection} {p q : PortRef}

/-! ## What is built from parts -/

theorem node?_ofParts_eq (nodes : List Node) (connections : List Connection) (id : NodeId) :
    (ofParts nodes connections).node? id = (nodes.filter (·.id = id)).getLast? :=
  Tables.getElem?_foldl_insert Node.id nodes id

theorem isSome_node?_ofParts (connections : List Connection) :
    ((ofParts nodes connections).node? id).isSome ↔ ∃ n ∈ nodes, n.id = id := by
  rw [node?_ofParts_eq, List.getLast?_isSome, ne_eq, List.filter_eq_nil_iff]
  simp

theorem connection?_ofParts_eq (nodes : List Node) (connections : List Connection)
    (k : ConnectionId) :
    (ofParts nodes connections).connection? k = (connections.filter fun c => c.id = k ∧
      (∃ n ∈ nodes, n.id = c.src.node) ∧ ∃ n ∈ nodes, n.id = c.dest.node).getLast? := by
  refine (Tables.getElem?_foldl_insert Connection.id _ k).trans ?_
  rw [List.filter_filter]
  have hcontains (id : NodeId) :
      (nodes.foldl (fun (t : NodeTable) n => t.insert n.id n) ∅).contains id ↔
        ∃ n ∈ nodes, n.id = id := by
    rw [Std.ExtTreeMap.contains_eq_isSome_getElem?]
    exact isSome_node?_ofParts connections
  refine congrArg _ (List.filter_congr fun c _ => ?_)
  rw [Bool.eq_iff_iff, Bool.and_eq_true, Bool.and_eq_true, hcontains, hcontains, decide_eq_true_eq,
    decide_eq_true_eq]

/-! ## What is built from a graph -/

/-- Where there is but one that satisfies a condition, it is the last one to do so. -/
theorem getLast?_filter_eq {β : Type} {p : β → Bool} {vs : List β} {o : Option β}
    (h : ∀ v, o = some v ↔ v ∈ vs ∧ p v) : (vs.filter p).getLast? = o := by
  cases hlast : (vs.filter p).getLast? with
  | none =>
    refine (Option.eq_none_iff_forall_ne_some.2 fun v hv => ?_).symm
    rw [List.getLast?_eq_none_iff] at hlast
    exact List.not_mem_nil (hlast ▸ List.mem_filter.2 ((h v).1 hv))
  | some v => exact ((h v).2 (List.mem_filter.1 (List.mem_of_getLast? hlast))).symm

/-- Built again from its nodes and connections, a graph is the same but for its counters. -/
theorem WellFormed.sameTables_ofParts (h : g.WellFormed) :
    SameTables (Graph.ofParts g.nodeList g.connectionList) g := by
  have hnode (id : NodeId) : (Graph.ofParts g.nodeList g.connectionList).node? id = g.node? id := by
    rw [node?_ofParts_eq]
    exact getLast?_filter_eq fun n => by rw [h.node?_eq_some_iff, decide_eq_true_eq]
  have hends {c : Connection} (hc : c ∈ g.connectionList) {id : NodeId} (ht : Touches c id) :
      ∃ n ∈ g.nodeList, n.id = id := by
    obtain ⟨n, hn⟩ := Option.isSome_iff_exists.1 (h.ends (h.mem_connectionList.1 hc) ht)
    exact ⟨n, h.node?_eq_some_iff.1 hn⟩
  have hconnection (k : ConnectionId) :
      (Graph.ofParts g.nodeList g.connectionList).connection? k = g.connection? k := by
    rw [connection?_ofParts_eq]
    refine getLast?_filter_eq fun c => ?_
    rw [h.connection?_eq_some_iff, decide_eq_true_eq]
    exact and_congr_right fun hc => (and_iff_left ⟨hends hc (.inl rfl), hends hc (.inr rfl)⟩).symm
  refine .of_lookups hnode hconnection fun ⟨id, k⟩ => ?_
  rw [(WellFormed.ofParts ..).incidence, h.incidence, hconnection]

/-! ## Fresh numbers -/

theorem WellFormed.contains_addNode (h : g.WellFormed) (module type : String) (params : Params)
    (ports : List PortSpec) : g.nodes.contains (g.addNode module type params ports).1 = false := by
  rw [Std.ExtTreeMap.contains_eq_isSome_getElem?]
  exact congrArg Option.isSome h.not_node_next

theorem WellFormed.contains_insertConnection (h : g.WellFormed)
    (hc : g.insertConnection p q = .ok (c, g')) : g.connections.contains c.id = false := by
  rw [Std.ExtTreeMap.contains_eq_isSome_getElem?, (insertConnection_ok hc).1]
  exact congrArg Option.isSome h.not_connection_next

end Graph

namespace Snapshot

variable {g h : Graph} {id : NodeId} {key : String} {name : String} {version : Nat}

theorem capture_congr (hs : Graph.SameTables g h) (name : String) (version : Nat) :
    capture name version g = capture name version h := by
  simp only [capture, Graph.nodeList, Graph.connectionList, hs.nodes, hs.connections]

/-- A graph that is built from parts has under each number the last node given, and the last
connection given of those whose ends are both there. A graph, whatever has been done with it, comes
back from its snapshot with the same nodes and connections, found at the same places. Then a
snapshot of it is the same, and whatever is done with it from there on, it gives out no number that
is in use.

By `sameTables_ofParts` the graph that comes back has the same tables; only its counters may be
others, and these are right as it is well-formed (`run_wellFormed`). -/
theorem reload_exact (nodes : List Node) (connections : List Connection) (o : Origin)
    (deeds : List Deed) (name : String) (version : Nat) :
    let built := Graph.ofParts nodes connections
    let g := ((Ledger.ofGraph o.graph).run deeds).graph
    let g' := (capture name version g).toGraph
    (∀ id, built.node? id = (nodes.filter (·.id = id)).getLast?) ∧
    (∀ k, built.connection? k = (connections.filter fun c => c.id = k ∧
      (∃ n ∈ nodes, n.id = c.src.node) ∧ ∃ n ∈ nodes, n.id = c.dest.node).getLast?) ∧
    (g'.nodes = g.nodes ∧ g'.connections = g.connections ∧
      (∀ id, g'.connectionsOf id = g.connectionsOf id) ∧
      (∀ id key, g'.connectionsInto id key = g.connectionsInto id key) ∧
      ∀ id key, g'.connectionsFrom id key = g.connectionsFrom id key) ∧
    capture name version g' = capture name version g ∧
    ∀ later, let g'' := ((Ledger.ofGraph g').run later).graph
      (∀ module type params ports,
        g''.nodes.contains (g''.addNode module type params ports).1 = false) ∧
      ∀ src dest c h, g''.insertConnection src dest = .ok (c, h) →
        g''.connections.contains c.id = false := by
  intro built g g'
  have hs : Graph.SameTables g' g := (Ledger.run_wellFormed o deeds).sameTables_ofParts
  have hof (id : NodeId) : g'.connectionsOf id = g.connectionsOf id := by
    simp only [Graph.connectionsOf, hs.incidence, hs.connections]
  refine ⟨Graph.node?_ofParts_eq nodes connections, Graph.connection?_ofParts_eq nodes connections,
    ⟨hs.nodes, hs.connections, hof, fun id key => ?_, fun id key => ?_⟩, capture_congr hs .., ?_⟩
  · simp only [Graph.connectionsInto, hof]
  · simp only [Graph.connectionsFrom, hof]
  · intro later g''
    have hg : g''.WellFormed := Ledger.run_wellFormed (.parts g.nodeList g.connectionList) later
    exact ⟨hg.contains_addNode, fun _ _ _ _ => hg.contains_insertConnection⟩

/-- One node is given twice, and so is one connection; another connection leads nowhere. -/
def doubled : Origin :=
  let node (id : NodeId) (ports : List PortSpec) : Node := ⟨id, "Core", "Pair", ∅, ports⟩
  let join (k : ConnectionId) (a b : NodeId) : Connection :=
    ⟨k, ⟨a, "output", .output, 0⟩, ⟨b, "input", .input, 0⟩⟩
  let ports : List PortSpec := [.input "input" .single, .output "output"]
  .parts [node ⟨0⟩ [], node ⟨1⟩ ports, node ⟨0⟩ ports]
    [join ⟨9⟩ ⟨0⟩ ⟨7⟩, join ⟨4⟩ ⟨1⟩ ⟨0⟩, join ⟨4⟩ ⟨0⟩ ⟨1⟩]

/-- The number of the connection that was left out is given out again, but none that is in use. -/
theorem reload_exact_doubled :
    let g := (capture "doubled" 1 doubled.graph).toGraph
    g.nodes = doubled.graph.nodes ∧ g.nextConnection < doubled.graph.nextConnection ∧
      ∃ c g', g.insertConnection ⟨⟨1⟩, "output", .output, 0⟩ ⟨⟨0⟩, "input", .input, 0⟩ =
          .ok (c, g') ∧
        g.connections.contains c.id = false := by
  intro g
  obtain ⟨-, -, ⟨hnodes, -⟩, -, hfresh⟩ := reload_exact [] [] doubled [] "doubled" 1
  obtain ⟨c, g', hjoin⟩ : ∃ c g', g.insertConnection ⟨⟨1⟩, "output", .output, 0⟩
      ⟨⟨0⟩, "input", .input, 0⟩ = .ok (c, g') := ⟨_, _, rfl⟩
  exact ⟨hnodes, by decide +kernel, c, g', hjoin, (hfresh []).2 _ _ c g' hjoin⟩

end Snapshot

end Dataflow
