import Dataflow.Proofs.Graph.Acyclic
import Dataflow.Proofs.Graph.Ledger
import Dataflow.Proofs.Graph.Order

/-! An order of the nodes, or a cycle.

The search for cycles keeps the nodes that turned out free of one, and each of these feeds only such
as were found before it (`findBack_ok`). So there is an order exactly if this search finds no cycle,
and exactly if no connection comes from a node downstream of the one that it goes to. -/

namespace Dataflow

namespace Graph

open Relation (ReflTransGen TransGen)

variable {es : List Edge} {v a n : NodeId} {vs : List NodeId} {g : Graph}

/-! ## Free nodes -/

/-- Where nothing leads back, a path does not leave the list. -/
theorem Settled.mem_of_path (h : Settled es (fun _ _ => False) vs) (hv : v ∈ vs)
    (hp : ReflTransGen (Leads es) v a) : a ∈ vs := by
  induction hp with
  | refl => exact hv
  | tail _ hs ih =>
    obtain ⟨pre, post, rfl⟩ := List.append_of_mem ih
    exact List.mem_append_right _ (.tail _ ((h.later hs).resolve_right id))

/-- Where nothing leads back, no node of the list is on a cycle. -/
theorem Settled.acyclic (h : Settled es (fun _ _ => False) vs) (hv : v ∈ vs) :
    ¬TransGen (Leads es) v v := by
  induction vs with
  | nil => cases hv
  | cons u vs ih =>
    rcases List.mem_cons.1 hv with rfl | hv
    · intro hc
      obtain ⟨s, hs, hp⟩ := Relation.TransGen.head'_iff.1 hc
      have hs : s ∈ vs := (h.1 s hs).resolve_right id
      exact ih h.2 (h.2.mem_of_path hs hp) hc
    · exact ih h.2 hv

/-! ## Cycles -/

variable {path free free' : List NodeId} {depth : Nat}

/-- A search that ends at a node of its path has gone around a cycle. -/
theorem findBack_error (hpath : ∀ x ∈ path, TransGen (Leads es) x v)
    (h : findBack es depth path free v = .error n) : TransGen (Leads es) n n := by
  induction depth generalizing path free v with
  | zero => cases h
  | succ depth ih =>
    rw [findBack] at h
    split at h
    next hv =>
      cases h
      exact hpath n hv
    split at h
    · cases h
    · rcases bind_error h with h | ⟨free₁, -, h⟩
      · obtain ⟨s, hs, free₁, h⟩ := exists_of_foldlM_error h
        have hs := mem_successors.1 hs
        exact ih (List.forall_mem_cons.2 ⟨.single hs, fun x hx => (hpath x hx).tail hs⟩) h
      · cases h

/-- A search that is as deep as there are nodes off its path finds only nodes that are on no cycle.
The induction is on the depth; the path has no node twice, so it never gets longer than the list of
all nodes. -/
theorem findBack_ok (hes : ∀ a b, Leads es a b → b ∈ vs) (hnodup : path.Nodup) (hsub : path ⊆ vs)
    (hv : v ∈ vs) (hdepth : vs.length < depth + path.length)
    (hfree : Settled es (fun _ _ => False) free) (h : findBack es depth path free v = .ok free') :
    Settled es (fun _ _ => False) free' ∧ free ⊆ free' ∧ v ∈ free' := by
  induction depth generalizing path free v free' with
  | zero =>
    have := (hnodup.subperm hsub).length_le
    omega
  | succ depth ih =>
    rw [findBack] at h
    split at h
    · cases h
    next hpath =>
    split at h
    next hv =>
      cases h
      exact ⟨hfree, List.Subset.refl _, hv⟩
    · obtain ⟨free₁, hfold, h⟩ := bind_ok h
      cases h
      obtain ⟨hfree₁, hmem, hkept⟩ := of_foldlM_ok
        (I := Settled es (fun _ _ => False)) (Q := fun s free => s ∈ free)
        (fun hs hu hstep =>
          have ⟨hu', hsub', hmem⟩ := ih (hnodup.cons hpath) (List.cons_subset.2 ⟨hv, hsub⟩)
            (hes v _ (mem_successors.1 hs)) (by rw [List.length_cons]; omega) hu hstep
          ⟨hu', hmem, hsub'⟩)
        hfree hfold
      exact ⟨⟨fun s hs => .inl (hmem s (mem_successors.2 hs)), hfree₁⟩,
        fun x hx => .tail v (hkept x hx), List.mem_cons_self⟩

theorem isCyclic_eq_false_iff : g.isCyclic = false ↔ ∀ a, ¬TransGen (Leads g.edges) a a := by
  simp only [isCyclic]
  cases h : g.vertices.foldlM (findBack g.edges (g.vertices.length + 1) []) [] with
  | error n =>
    obtain ⟨v, -, free, hv⟩ := exists_of_foldlM_error h
    simpa using ⟨n, findBack_error (by simp) hv⟩
  | ok free =>
    obtain ⟨hfree, hmem, -⟩ := of_foldlM_ok
      (I := Settled g.edges (fun _ _ => False)) (Q := fun v free => v ∈ free)
      (fun hv hu hstep =>
        have ⟨hu', hsub, hmem⟩ := findBack_ok (fun a b hs => (leads_vertices hs).2) .nil
          (List.nil_subset _) hv (by simp) hu hstep
        ⟨hu', hmem, hsub⟩)
      (show Settled _ _ [] from trivial) h
    simp only [true_iff]
    intro a hc
    obtain ⟨b, hs, -⟩ := Relation.TransGen.head'_iff.1 hc
    exact hfree.acyclic (hmem a (leads_vertices hs).1) hc

/-! ## In terms of the connections -/

/-- The edges are those of the connections, however many join the same nodes: what `Leads` says of
the edges is what `Feeds` says of the graph. -/
theorem leads_edges : Leads g.edges = g.Feeds := by
  funext a b
  simp only [Leads, edges, mem_foldl_insert, List.not_mem_nil, false_or, List.mem_map,
    connectionList, Tables.mem_values, Prod.mk.injEq, Feeds, eq_iff_iff]
  constructor
  · rintro ⟨c, ⟨k, hk⟩, hs, ht⟩
    exact ⟨k, c, hk, hs, ht⟩
  · rintro ⟨k, c, hk, hs, ht⟩
    exact ⟨c, ⟨k, hk⟩, hs, ht⟩

theorem WellFormed.mem_ids (h : g.WellFormed) :
    v ∈ g.nodeList.map (·.id) ↔ (g.node? v).isSome := by
  simp only [List.mem_map, Option.isSome_iff_exists, h.node?_eq_some_iff]

theorem WellFormed.mem_vertices (h : g.WellFormed) : v ∈ g.vertices ↔ (g.node? v).isSome := by
  rw [vertices, mem_foldl_insert, h.mem_ids, or_iff_left_iff_imp]
  intro hv
  obtain ⟨⟨a, b⟩, hab, hv⟩ := List.mem_flatMap.1 hv
  obtain ⟨k, c, hk, rfl, rfl⟩ : g.Feeds a b := leads_edges ▸ hab
  refine h.ends hk ?_
  simpa [Touches, eq_comm] using hv

/-- There is no cycle if no connection comes from a node that lies downstream of where it goes. -/
theorem WellFormed.acyclic_iff (h : g.WellFormed) :
    g.Acyclic ↔ ∀ c ∈ g.connectionList, c.src.node ∉ g.downstream [c.dest.node] := by
  simp only [h.mem_downstream, List.mem_singleton, exists_eq_left]
  constructor
  · intro hacyclic c hc hp
    exact hacyclic _ (.head' ⟨c.id, c, h.mem_connectionList.1 hc, rfl, rfl⟩ hp)
  · intro hback a hc
    obtain ⟨b, ⟨k, c, hk, rfl, rfl⟩, hp⟩ := Relation.TransGen.head'_iff.1 hc
    exact hback c (h.mem_list hk) hp

end Graph

namespace Ledger

open Relation (TransGen)

/-- Whatever has been done with a graph, there is an order of its nodes exactly if no connection
comes from a node downstream of the one that it goes to, and then no cycle is found. The order holds
each node once, and each connection goes to a later node than it comes from. Where there is no
order, the node that is given instead is on a cycle.

The order itself is `topologicalOrder_ok`, and the cycle `topologicalOrder_error`; that no
connection comes back from downstream is `WellFormed.acyclic_iff`. -/
theorem order_or_cycle (o : Origin) (deeds : List Deed) :
    let g := ((Ledger.ofGraph o.graph).run deeds).graph
    ((∃ order, g.topologicalOrder = .ok order) ↔
      ∀ c ∈ g.connectionList, c.src.node ∉ g.downstream [c.dest.node]) ∧
    (g.isCyclic = false ↔ ∀ c ∈ g.connectionList, c.src.node ∉ g.downstream [c.dest.node]) ∧
    (∀ order, g.topologicalOrder = .ok order →
      order.Nodup ∧ (∀ id, id ∈ order ↔ (g.node? id).isSome) ∧
        ∀ c ∈ g.connectionList, order.idxOf c.src.node < order.idxOf c.dest.node) ∧
    ∀ n, g.topologicalOrder = .error n → TransGen g.Feeds n n := by
  intro g
  have h : g.WellFormed := Ledger.run_wellFormed o deeds
  refine ⟨?_, ?_, fun order hn => ?_, fun n hn => ?_⟩
  · rw [Graph.exists_topologicalOrder_iff, Graph.leads_edges, ← h.acyclic_iff, Graph.Acyclic]
  · rw [Graph.isCyclic_eq_false_iff, Graph.leads_edges, ← h.acyclic_iff, Graph.Acyclic]
  · obtain ⟨hnodup, hmem, hlt⟩ := Graph.topologicalOrder_ok hn
    refine ⟨hnodup, fun id => (hmem id).trans h.mem_vertices, fun c hc => hlt _ _ ?_⟩
    rw [Graph.leads_edges]
    exact ⟨c.id, c, h.mem_connectionList.1 hc, rfl, rfl⟩
  · rw [← Graph.leads_edges]
    exact Graph.topologicalOrder_error hn

/-- Two nodes that feed each other, one that feeds the first of them twice, and one that the second
feeds. -/
def eddy : Origin :=
  let node (id : NodeId) : Node := ⟨id, "Core", "Pair", ∅, []⟩
  let join (k : ConnectionId) (a b : NodeId) : Connection :=
    ⟨k, ⟨a, "output", .output, 0⟩, ⟨b, "input", .input, 0⟩⟩
  .parts [node ⟨0⟩, node ⟨1⟩, node ⟨2⟩, node ⟨3⟩]
    [join ⟨0⟩ ⟨0⟩ ⟨1⟩, join ⟨1⟩ ⟨1⟩ ⟨2⟩, join ⟨2⟩ ⟨2⟩ ⟨1⟩, join ⟨3⟩ ⟨2⟩ ⟨3⟩, join ⟨4⟩ ⟨0⟩ ⟨1⟩]

/-- The nodes of the eddy have no order, and have one once the connection back is gone. -/
theorem order_or_cycle_eddy :
    TransGen (Ledger.ofGraph eddy.graph).graph.Feeds ⟨2⟩ ⟨2⟩ ∧
      let g := ((Ledger.ofGraph eddy.graph).run [.mutate (.removeConnection ⟨2⟩)]).graph
      g.topologicalOrder = .ok [⟨0⟩, ⟨1⟩, ⟨2⟩, ⟨3⟩] ∧
        ∀ c ∈ g.connectionList, c.src.node ∉ g.downstream [c.dest.node] := by
  obtain ⟨-, -, -, hcycle⟩ := order_or_cycle eddy []
  obtain ⟨horder, -, -, -⟩ := order_or_cycle eddy [.mutate (.removeConnection ⟨2⟩)]
  exact ⟨hcycle ⟨2⟩ rfl, rfl, horder.1 ⟨_, rfl⟩⟩

end Ledger

end Dataflow
