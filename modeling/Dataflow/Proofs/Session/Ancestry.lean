import Dataflow.Proofs.Graph.Ledger
import Dataflow.Proofs.Graph.Worklist
import Dataflow.Session.Basic

/-! What lies before a node, and what lies after it.

Whatever has been done with a graph, cycles and repeated connections included, the search through a
queue comes to an end, and what it has found are the start nodes and the nodes that a path joins to
one of them. The search in rounds, which is `Graph.upstream` and `Graph.downstream`, finds the same.
-/

namespace Dataflow

open Relation (ReflTransGen TransGen)

namespace Graph.WellFormed

variable {g : Graph} {start : List NodeId} {a : NodeId}

theorem mem_upstream_iff (h : g.WellFormed) :
    a ∈ g.upstream start ↔ a ∈ start ∨ ∃ s ∈ start, TransGen g.Feeds a s := by
  simp only [h.mem_upstream, Relation.reflTransGen_iff_eq_or_transGen]
  grind

theorem mem_downstream_iff (h : g.WellFormed) :
    a ∈ g.downstream start ↔ a ∈ start ∨ ∃ s ∈ start, TransGen g.Feeds s a := by
  simp only [h.mem_downstream, Relation.reflTransGen_iff_eq_or_transGen]
  grind

end Graph.WellFormed

namespace Session

variable {s : Session} {id : NodeId}

theorem ancestors_eq (h : (s.graph.node? id).isSome) :
    s.ancestors id = .ok (s.graph.upstream [id]) := by
  obtain ⟨n, hn⟩ := Option.isSome_iff_exists.1 h
  rw [ancestors, Graph.requireNode_ok.2 hn]
  rfl

theorem descendants_eq (h : (s.graph.node? id).isSome) :
    s.descendants id = .ok (s.graph.downstream [id]) := by
  obtain ⟨n, hn⟩ := Option.isSome_iff_exists.1 h
  rw [descendants, Graph.requireNode_ok.2 hn]
  rfl

/-- Whatever has been done with a graph, the queue of a search is empty after at most as many steps
as there are start nodes and connections: this is `Graph.drain`, by `drain_suppliers` and
`drain_consumers`. Upstream of some nodes lie these and all nodes that a path leads from to one of
them, downstream these and all that a path leads to (`mem_upstream_iff`). So of two nodes one is an
ancestor of the other exactly when the other is a descendant of the one. -/
theorem closures_exact (o : Origin) (deeds : List Deed) (start : List NodeId) :
    let g := ((Ledger.ofGraph o.graph).run deeds).graph
    (∀ steps, start.length + g.connections.size ≤ steps →
      Graph.drain g.suppliers steps ∅ start = some (g.upstream start) ∧
        Graph.drain g.consumers steps ∅ start = some (g.downstream start)) ∧
    (∀ a, a ∈ g.upstream start ↔ a ∈ start ∨ ∃ s ∈ start, TransGen g.Feeds a s) ∧
    (∀ a, a ∈ g.downstream start ↔ a ∈ start ∨ ∃ s ∈ start, TransGen g.Feeds s a) ∧
    (∀ a b, a ∈ g.upstream [b] ↔ b ∈ g.downstream [a]) ∧
    ∀ s : Session, s.graph = g → ∀ a b, (g.node? a).isSome → (g.node? b).isSome →
      ∃ before after, s.ancestors b = .ok before ∧ s.descendants a = .ok after ∧
        (a ∈ before ↔ b ∈ after) := by
  intro g
  have h : g.WellFormed := Ledger.run_wellFormed o deeds
  have dual (a b : NodeId) : a ∈ g.upstream [b] ↔ b ∈ g.downstream [a] := by
    simp only [h.mem_upstream, h.mem_downstream, List.mem_singleton, exists_eq_left]
  refine ⟨fun steps hsteps => ⟨h.drain_suppliers hsteps, h.drain_consumers hsteps⟩,
    fun a => h.mem_upstream_iff, fun a => h.mem_downstream_iff, dual, ?_⟩
  intro s hs a b ha hb
  exact ⟨g.upstream [b], g.downstream [a], hs ▸ ancestors_eq (hs ▸ hb),
    hs ▸ descendants_eq (hs ▸ ha), dual a b⟩

/-- Two nodes that feed each other, the first one twice. -/
def whirl : Origin :=
  let node (id : NodeId) : Node := ⟨id, "Core", "Pair", ∅, NodeDefinition.pair.ports⟩
  let join (k : ConnectionId) (a b : NodeId) : Connection :=
    ⟨k, ⟨a, "output", .output, 0⟩, ⟨b, "input", .input, 0⟩⟩
  .parts [node ⟨0⟩, node ⟨1⟩] [join ⟨0⟩ ⟨0⟩ ⟨1⟩, join ⟨1⟩ ⟨1⟩ ⟨0⟩, join ⟨2⟩ ⟨0⟩ ⟨1⟩]

theorem closures_exact_whirl :
    let s : Session := { start .default .builtin with graph := whirl.graph }
    Graph.drain s.graph.suppliers 4 ∅ [⟨1⟩] = some (s.graph.upstream [⟨1⟩]) ∧
      ∃ before after, s.ancestors ⟨1⟩ = .ok before ∧ s.descendants ⟨0⟩ = .ok after ∧
        (⟨0⟩ ∈ before ↔ ⟨1⟩ ∈ after) := by
  intro s
  obtain ⟨hdrain, -, -, -, hkin⟩ := closures_exact whirl [] [⟨1⟩]
  exact ⟨(hdrain 4 (by decide +kernel)).1,
    hkin s rfl ⟨0⟩ ⟨1⟩ (by decide +kernel) (by decide +kernel)⟩

end Session

end Dataflow
