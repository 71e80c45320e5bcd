import Mathlib.Algebra.BigOperators.Group.Finset.Basic
import Dataflow.Proofs.Graph.Reach

/-! Going through a queue, node by node, finds the same nodes as going on in rounds (`mem_drain`).

A node may be queued many times, but it goes on to others only once. So each step uses up a start
node or a connection, and the queue is empty after as many steps as there are of these: what is
still to be queued is the `load` of the nodes not seen yet. -/

namespace Dataflow.Graph

open Relation (ReflTransGen)

/-- Takes nodes from the front of a queue. One that was not seen before is now, and the nodes next
to it go to the end of the queue. While the queue is not empty there is no answer. -/
def drain (next : NodeId → List NodeId) :
    (steps : Nat) → (seen : NodeSet) → (queue : List NodeId) → Option NodeSet
  | _, seen, [] => some seen
  | 0, _, _ :: _ => none
  | steps + 1, seen, id :: queue =>
    if seen.contains id then drain next steps seen queue
    else drain next steps (seen.insert id) (queue ++ next id)

section Drain

variable {next : NodeId → List NodeId} {seen found : NodeSet} {queue start : List NodeId}
  {a id : NodeId} {steps : Nat}

/-! ### What is found -/

/-- All that was seen or queued is found, and with a node all that are next to it. -/
structure Drained (next : NodeId → List NodeId) (seen : NodeSet) (queue : List NodeId)
    (found : NodeSet) : Prop where
  of_seen : ∀ x ∈ seen, x ∈ found
  of_queue : ∀ x ∈ queue, x ∈ found
  closed : ∀ x ∈ found, ∀ y ∈ next x, y ∈ found
  reached : ∀ x ∈ found, x ∈ seen ∨ ∃ q ∈ queue, ReflTransGen (fun x y => y ∈ next x) q x

theorem Drained.nil (h : ∀ x ∈ seen, ∀ y ∈ next x, y ∈ seen ∨ y ∈ []) :
    Drained next seen [] seen where
  of_seen _ h := h
  of_queue := by simp
  closed x hx y hy := (h x hx y hy).resolve_right List.not_mem_nil
  reached _ := .inl

theorem Drained.skip (h : Drained next seen queue found) (hid : id ∈ seen) :
    Drained next seen (id :: queue) found where
  of_seen := h.of_seen
  of_queue := List.forall_mem_cons.2 ⟨h.of_seen id hid, h.of_queue⟩
  closed := h.closed
  reached x hx := (h.reached x hx).imp_right fun ⟨q, hq, hp⟩ => ⟨q, .tail _ hq, hp⟩

theorem Drained.visit (h : Drained next (seen.insert id) (queue ++ next id) found) :
    Drained next seen (id :: queue) found where
  of_seen x hx := h.of_seen x (Tables.mem_insert.2 (.inr hx))
  of_queue := List.forall_mem_cons.2 ⟨h.of_seen id (Tables.mem_insert.2 (.inl rfl)),
    fun x hx => h.of_queue x (List.mem_append_left _ hx)⟩
  closed := h.closed
  reached x hx := by
    rcases h.reached x hx with hx | ⟨q, hq, hp⟩
    · rcases Tables.mem_insert.1 hx with rfl | hx
      · exact .inr ⟨x, .head _, .refl⟩
      · exact .inl hx
    rcases List.mem_append.1 hq with hq | hq
    · exact .inr ⟨q, .tail _ hq, hp⟩
    · exact .inr ⟨id, .head _, .head hq hp⟩

theorem drained (h : drain next steps seen queue = some found)
    (hseen : ∀ x ∈ seen, ∀ y ∈ next x, y ∈ seen ∨ y ∈ queue) :
    Drained next seen queue found := by
  induction steps generalizing seen queue with
  | zero =>
    cases queue with
    | nil =>
      cases h
      exact .nil hseen
    | cons => cases h
  | succ steps ih =>
    cases queue with
    | nil =>
      cases h
      exact .nil hseen
    | cons id queue =>
      rw [drain] at h
      split at h
      next hid =>
        rw [Std.ExtTreeSet.contains_iff_mem] at hid
        refine (ih h fun x hx y hy => ?_).skip hid
        rcases hseen x hx y hy with hy | hy
        · exact .inl hy
        · rcases List.mem_cons.1 hy with rfl | hy
          · exact .inl hid
          · exact .inr hy
      next hid =>
        refine (ih h fun x hx y hy => ?_).visit
        rw [Tables.mem_insert, List.mem_append]
        rcases Tables.mem_insert.1 hx with rfl | hx
        · exact .inr (.inr hy)
        rcases hseen x hx y hy with hy | hy
        · exact .inl (.inr hy)
        · rcases List.mem_cons.1 hy with rfl | hy
          · exact .inl (.inl rfl)
          · exact .inr (.inl hy)

/-- From an empty queue on, exactly those nodes are found that a path leads to. -/
theorem mem_drain (h : drain next steps ∅ start = some found) :
    a ∈ found ↔ ∃ s ∈ start, ReflTransGen (fun x y => y ∈ next x) s a := by
  have hd := drained h (by simp)
  constructor
  · exact fun ha => (hd.reached a ha).resolve_left Std.ExtTreeSet.not_mem_empty
  · rintro ⟨s, hs, hp⟩
    induction hp with
    | refl => exact hd.of_queue s hs
    | tail _ hxy ih => exact hd.closed _ ih _ hxy

/-! ### How long it takes -/

/-- How often unseen nodes will queue others. -/
def load (next : NodeId → List NodeId) (nodes : Finset NodeId) (seen : NodeSet) : Nat :=
  ∑ x ∈ nodes.filter (· ∉ seen), (next x).length

/-- A node that is seen now queues those next to it, and no more in the future. -/
theorem load_insert {nodes : Finset NodeId} (hnodes : ∀ x y, y ∈ next x → x ∈ nodes)
    (hid : id ∉ seen) :
    load next nodes (seen.insert id) + (next id).length = load next nodes seen := by
  have hfilter : nodes.filter (· ∉ seen.insert id) = (nodes.filter (· ∉ seen)).erase id := by
    ext x
    simp only [Finset.mem_filter, Finset.mem_erase, Tables.mem_insert]
    grind
  rw [load, hfilter]
  by_cases hmem : id ∈ nodes
  · exact Finset.sum_erase_add _ _ (Finset.mem_filter.2 ⟨hmem, hid⟩)
  · have hnil : next id = [] := List.eq_nil_iff_forall_not_mem.2 fun y hy => hmem (hnodes id y hy)
    rw [Finset.erase_eq_of_notMem fun h => hmem (Finset.mem_filter.1 h).1, hnil]
    rfl

theorem exists_drain (nodes : Finset NodeId) (hnodes : ∀ x y, y ∈ next x → x ∈ nodes)
    (h : queue.length + load next nodes seen ≤ steps) :
    ∃ found, drain next steps seen queue = some found := by
  induction steps generalizing seen queue with
  | zero =>
    cases queue with
    | nil => exact ⟨seen, rfl⟩
    | cons => simp at h
  | succ steps ih =>
    cases queue with
    | nil => exact ⟨seen, rfl⟩
    | cons id queue =>
      rw [List.length_cons] at h
      rw [drain]
      split
      · exact ih (by omega)
      next hid =>
        have hload := load_insert hnodes (mt Std.ExtTreeSet.contains_iff_mem.2 hid)
        exact ih (by rw [List.length_append]; omega)

end Drain

/-! ## Through the connections of a graph -/

variable {g : Graph} {id : NodeId} {start : List NodeId} {steps : Nat}

/-- The nodes at the far ends of those connections that have the near end at a node. -/
def across (g : Graph) (near far : Connection → PortRef) (id : NodeId) : List NodeId :=
  (g.connectionList.filter fun c => (near c).node = id).map fun c => (far c).node

theorem WellFormed.suppliers_eq (h : g.WellFormed) : g.suppliers = g.across (·.dest) (·.src) := by
  funext id
  rw [suppliers, across, h.connectionsOf_eq_filter, List.filter_filter]
  congr 2
  grind

theorem WellFormed.consumers_eq (h : g.WellFormed) : g.consumers = g.across (·.src) (·.dest) := by
  funext id
  rw [consumers, across, h.connectionsOf_eq_filter, List.filter_filter]
  congr 2
  grind

/-- Each connection has one near end, so it queues a node once. -/
theorem load_across (near far : Connection → PortRef) :
    load (g.across near far) (g.endpoints near) ∅ = g.connections.size := by
  have hcount (id : NodeId) : (g.across near far id).length =
      (g.connectionList.map fun c => (near c).node).count id := by
    rw [across, List.length_map, List.count_eq_length_filter, List.filter_map, List.length_map]
    rfl
  simp only [load, Std.ExtTreeSet.not_mem_empty, not_false_eq_true, Finset.filter_true, hcount]
  rw [endpoints, List.sum_toFinset_count_eq_length, List.length_map, connectionList,
    Tables.length_values]

theorem exists_drain_across (near far : Connection → PortRef)
    (hsteps : start.length + g.connections.size ≤ steps) :
    ∃ found, drain (g.across near far) steps ∅ start = some found := by
  refine exists_drain (g.endpoints near) (fun x y hy => ?_) (by rwa [load_across])
  obtain ⟨c, hc, -⟩ := List.mem_map.1 hy
  obtain ⟨hc, hx⟩ := List.mem_filter.1 hc
  exact List.mem_toFinset.2 (List.mem_map.2 ⟨c, hc, of_decide_eq_true hx⟩)

/-- Going through a queue against the connections ends with all that lies upstream. It ends by
`exists_drain_across`, and with the right nodes by `mem_drain`. -/
theorem WellFormed.drain_suppliers (h : g.WellFormed)
    (hsteps : start.length + g.connections.size ≤ steps) :
    drain g.suppliers steps ∅ start = some (g.upstream start) := by
  obtain ⟨found, hfound⟩ := exists_drain_across (g := g) (·.dest) (·.src) hsteps
  rw [← h.suppliers_eq] at hfound
  rw [hfound]
  refine congrArg some (Std.ExtTreeSet.ext_mem fun {a} => ?_)
  rw [mem_drain hfound, h.mem_upstream]
  simp only [h.mem_suppliers, ← Relation.reflTransGen_swap (r := g.Feeds)]

/-- Going through a queue along the connections ends with all that lies downstream, in the same way.
-/
theorem WellFormed.drain_consumers (h : g.WellFormed)
    (hsteps : start.length + g.connections.size ≤ steps) :
    drain g.consumers steps ∅ start = some (g.downstream start) := by
  obtain ⟨found, hfound⟩ := exists_drain_across (g := g) (·.src) (·.dest) hsteps
  rw [← h.consumers_eq] at hfound
  rw [hfound]
  refine congrArg some (Std.ExtTreeSet.ext_mem fun {a} => ?_)
  rw [mem_drain hfound, h.mem_downstream]
  simp only [h.mem_consumers]

end Dataflow.Graph
