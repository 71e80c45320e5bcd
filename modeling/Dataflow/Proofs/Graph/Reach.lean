import Mathlib.Data.Finset.Card
import Mathlib.Logic.Relation
import Dataflow.Graph.Reach
import Dataflow.Proofs.Graph.WellFormed

/-! The nodes found by spreading along the connections are exactly those that a path leads to
(`mem_upstream`, `mem_downstream`). -/

namespace Dataflow.Graph

open Relation (ReflTransGen TransGen)

/-- Some connection leads from one node to the other. -/
def Feeds (g : Graph) (a b : NodeId) : Prop :=
  ∃ k c, g.connection? k = some c ∧ c.src.node = a ∧ c.dest.node = b

/-! ## Spreading -/

section Spread

variable {next : NodeId → List NodeId} {seen fresh : NodeSet} {a b : NodeId} {rounds : Nat}

theorem mem_ofList {ids : List NodeId} : a ∈ NodeSet.ofList ids ↔ a ∈ ids := by
  simp only [NodeSet.ofList, Std.ExtTreeSet.mem_ofList, List.contains_iff_mem]

/-- The nodes of the next round. -/
def frontier (next : NodeId → List NodeId) (seen fresh : NodeSet) : NodeSet :=
  (NodeSet.ofList (fresh.toList.flatMap next)).filter fun id => !(seen ∪ fresh).contains id

theorem mem_frontier :
    b ∈ frontier next seen fresh ↔ (∃ a ∈ fresh, b ∈ next a) ∧ b ∉ seen ∪ fresh := by
  simp only [frontier, Std.ExtTreeSet.mem_filter, mem_ofList, List.mem_flatMap,
    Std.ExtTreeSet.mem_toList, Std.ExtTreeSet.get_eq, Bool.not_eq_true', exists_prop,
    ← Bool.not_eq_true, Std.ExtTreeSet.contains_iff_mem]

theorem spread_succ (h : ¬fresh.isEmpty) :
    spread next (rounds + 1) seen fresh =
      spread next rounds (seen ∪ fresh) (frontier next seen fresh) := by
  rw [spread, if_neg h]
  rfl

theorem spread_isEmpty (h : fresh.isEmpty) : spread next rounds seen fresh = seen := by
  cases rounds with
  | zero => rfl
  | succ => rw [spread, if_pos h]

/-- Nothing is found that no path leads to. -/
theorem of_mem_spread (h : a ∈ spread next rounds seen fresh) :
    a ∈ seen ∨ ∃ s ∈ fresh, ReflTransGen (fun x y => y ∈ next x) s a := by
  induction rounds generalizing seen fresh with
  | zero => exact .inl h
  | succ rounds ih =>
    by_cases he : fresh.isEmpty
    · rw [spread_isEmpty he] at h
      exact .inl h
    rw [spread_succ he] at h
    rcases ih h with h | ⟨s, hs, hp⟩
    · exact (Std.ExtTreeSet.mem_union_iff.1 h).imp_right fun h => ⟨a, h, .refl⟩
    · obtain ⟨⟨r, hr, hrs⟩, -⟩ := mem_frontier.1 hs
      exact .inr ⟨r, hr, .head hrs hp⟩

/-- A round with a fresh node leaves fewer nodes to be found. -/
theorem card_unseen_lt (nodes : Finset NodeId) (hfresh : ∀ x ∈ fresh, x ∉ seen)
    (hsub : ∀ x ∈ fresh, x ∈ nodes) (h : ¬fresh.isEmpty) :
    (nodes.filter (· ∉ seen ∪ fresh)).card < (nodes.filter (· ∉ seen)).card := by
  obtain ⟨s, hs⟩ : ∃ s, s ∈ fresh := by
    rw [Std.ExtTreeSet.isEmpty_iff] at h
    by_contra hn
    exact h (Std.ExtTreeSet.ext_mem fun {a} => by simpa using fun ha => hn ⟨a, ha⟩)
  refine Finset.card_lt_card (Finset.ssubset_iff_of_subset ?_ |>.2 ⟨s, ?_, ?_⟩)
  · intro x hx
    simp only [Finset.mem_filter, Std.ExtTreeSet.mem_union_iff, not_or] at hx ⊢
    exact ⟨hx.1, hx.2.1⟩
  · exact Finset.mem_filter.2 ⟨hsub s hs, hfresh s hs⟩
  · simp [hs]

/-- With as many rounds as there are nodes to be found the search ends by itself, and what it has
found is closed: each round leaves fewer of them (`card_unseen_lt`). -/
theorem spread_closed (nodes : Finset NodeId) (hnext : ∀ x y, y ∈ next x → y ∈ nodes)
    (hseen : ∀ x ∈ seen, ∀ y ∈ next x, y ∈ seen ∪ fresh) (hfresh : ∀ x ∈ fresh, x ∉ seen)
    (hsub : ∀ x ∈ fresh, x ∈ nodes) (hr : (nodes.filter (· ∉ seen)).card ≤ rounds) :
    (∀ x ∈ seen ∪ fresh, x ∈ spread next rounds seen fresh) ∧
      ∀ x ∈ spread next rounds seen fresh, ∀ y ∈ next x, y ∈ spread next rounds seen fresh := by
  induction rounds generalizing seen fresh with
  | zero =>
    have he : fresh.isEmpty := by
      by_contra he
      have := card_unseen_lt nodes hfresh hsub he
      omega
    rw [Std.ExtTreeSet.isEmpty_iff] at he
    subst he
    simp only [Std.ExtTreeSet.mem_union_iff, Std.ExtTreeSet.not_mem_empty, or_false] at hseen ⊢
    exact ⟨fun _ h => h, hseen⟩
  | succ rounds ih =>
    by_cases he : fresh.isEmpty
    · rw [spread_isEmpty he]
      rw [Std.ExtTreeSet.isEmpty_iff] at he
      subst he
      simp only [Std.ExtTreeSet.mem_union_iff, Std.ExtTreeSet.not_mem_empty, or_false] at hseen ⊢
      exact ⟨fun _ h => h, hseen⟩
    rw [spread_succ he]
    have hless := card_unseen_lt nodes hfresh hsub he
    have hstep : ∀ x ∈ seen ∪ fresh, ∀ y ∈ next x,
        y ∈ (seen ∪ fresh) ∪ frontier next seen fresh := by
      intro x hx y hy
      rw [Std.ExtTreeSet.mem_union_iff]
      by_cases hyn : y ∈ seen ∪ fresh
      · exact .inl hyn
      rcases Std.ExtTreeSet.mem_union_iff.1 hx with hx | hx
      · exact .inl (hseen x hx y hy)
      · exact .inr (mem_frontier.2 ⟨⟨x, hx, hy⟩, hyn⟩)
    have := ih hstep
      (fun x hx => (mem_frontier.1 hx).2)
      (fun x hx => have ⟨⟨a, _, hax⟩, _⟩ := mem_frontier.1 hx; hnext a x hax) (by omega)
    exact ⟨fun x hx => this.1 x (Std.ExtTreeSet.mem_union_iff.2 (.inl hx)), this.2⟩

theorem mem_spread {start : NodeSet} (nodes : Finset NodeId)
    (hnext : ∀ x y, y ∈ next x → y ∈ nodes) (hr : nodes.card + 1 ≤ rounds) :
    a ∈ spread next rounds ∅ start ↔ ∃ s ∈ start, ReflTransGen (fun x y => y ∈ next x) s a := by
  constructor
  · intro h
    exact (of_mem_spread h).resolve_left Std.ExtTreeSet.not_mem_empty
  rintro ⟨s, hs, hp⟩
  obtain ⟨rounds, rfl⟩ : ∃ r, rounds = r + 1 := ⟨rounds - 1, by omega⟩
  have he : ¬start.isEmpty := by
    rw [Std.ExtTreeSet.isEmpty_iff]
    rintro rfl
    exact Std.ExtTreeSet.not_mem_empty hs
  rw [spread_succ he]
  have hcard := Finset.card_filter_le nodes (· ∉ (∅ ∪ start : NodeSet))
  obtain ⟨hsub, hclosed⟩ : _ ∧ ∀ x ∈ spread next rounds (∅ ∪ start) (frontier next ∅ start), _ :=
    spread_closed nodes hnext
    (fun x hx y hy => by
      rw [Std.ExtTreeSet.mem_union_iff]
      by_cases hyn : y ∈ (∅ ∪ start : NodeSet)
      · exact .inl hyn
      · exact .inr (mem_frontier.2 ⟨⟨x, by simpa using hx, hy⟩, hyn⟩))
    (fun x hx => (mem_frontier.1 hx).2)
    (fun x hx => have ⟨⟨a, _, hax⟩, _⟩ := mem_frontier.1 hx; hnext a x hax) (by omega)
  induction hp with
  | refl =>
    exact hsub _ (Std.ExtTreeSet.mem_union_iff.2 (.inl (Std.ExtTreeSet.mem_union_iff.2 (.inr hs))))
  | tail _ hxy ih => exact hclosed _ ih _ hxy

end Spread

/-! ## Upstream and downstream -/

variable {g : Graph} {a b : NodeId} {start : List NodeId}

theorem WellFormed.mem_suppliers (h : g.WellFormed) : a ∈ g.suppliers b ↔ g.Feeds a b := by
  simp only [suppliers, List.mem_map, List.mem_filter, h.mem_connectionsOf, decide_eq_true_eq]
  constructor
  · rintro ⟨c, ⟨⟨hc, -⟩, hd⟩, hs⟩
    exact ⟨_, c, hc, hs, hd⟩
  · rintro ⟨k, c, hc, hs, hd⟩
    obtain rfl := h.connection_id hc
    exact ⟨c, ⟨⟨hc, .inr hd⟩, hd⟩, hs⟩

theorem WellFormed.mem_consumers (h : g.WellFormed) : b ∈ g.consumers a ↔ g.Feeds a b := by
  simp only [consumers, List.mem_map, List.mem_filter, h.mem_connectionsOf, decide_eq_true_eq]
  constructor
  · rintro ⟨c, ⟨⟨hc, -⟩, hs⟩, hd⟩
    exact ⟨_, c, hc, hs, hd⟩
  · rintro ⟨k, c, hc, hs, hd⟩
    obtain rfl := h.connection_id hc
    exact ⟨c, ⟨⟨hc, .inl hs⟩, hs⟩, hd⟩

theorem WellFormed.feeds_of_mem_connectionsInto (h : g.WellFormed) {key : String} {c : Connection}
    (hc : c ∈ g.connectionsInto b key) : g.Feeds c.src.node b := by
  obtain ⟨hc, hd, -⟩ := h.mem_connectionsInto.1 hc
  exact ⟨c.id, c, hc, rfl, hd⟩

theorem WellFormed.feeds_of_mem_connectionsFrom (h : g.WellFormed) {key : String} {c : Connection}
    (hc : c ∈ g.connectionsFrom a key) : g.Feeds a c.dest.node := by
  obtain ⟨hc, hs, -⟩ := h.mem_connectionsFrom.1 hc
  exact ⟨c.id, c, hc, hs, rfl⟩

/-- One end of each connection. There are no more of them than rounds. -/
def endpoints (g : Graph) (tip : Connection → PortRef) : Finset NodeId :=
  (g.connectionList.map fun c => (tip c).node).toFinset

theorem card_endpoints (g : Graph) (tip : Connection → PortRef) :
    (g.endpoints tip).card + 1 ≤ g.rounds := by
  have hlength : (g.connectionList.map fun c => (tip c).node).length = g.connections.size := by
    rw [List.length_map, connectionList, Tables.length_values]
  exact Nat.succ_le_succ (hlength ▸ List.toFinset_card_le _)

theorem mem_endpoints {k : ConnectionId} {c : Connection} (hc : g.connection? k = some c)
    (tip : Connection → PortRef) : (tip c).node ∈ g.endpoints tip :=
  List.mem_toFinset.2 (List.mem_map.2 ⟨c, Tables.mem_values.2 ⟨k, hc⟩, rfl⟩)

/-- Upstream of some nodes lie those from which a path leads to one of them. -/
theorem WellFormed.mem_upstream (h : g.WellFormed) :
    a ∈ g.upstream start ↔ ∃ s ∈ start, ReflTransGen g.Feeds a s := by
  rw [upstream, mem_spread (g.endpoints Connection.src) ?_ (card_endpoints ..)]
  · simp only [mem_ofList, h.mem_suppliers]
    simp only [← Relation.reflTransGen_swap (r := g.Feeds)]
  · intro x y hy
    obtain ⟨k, c, hc, rfl, -⟩ := h.mem_suppliers.1 hy
    exact mem_endpoints hc _

/-- Downstream of some nodes lie those to which a path leads from one of them. -/
theorem WellFormed.mem_downstream (h : g.WellFormed) :
    b ∈ g.downstream start ↔ ∃ s ∈ start, ReflTransGen g.Feeds s b := by
  rw [downstream, mem_spread (g.endpoints Connection.dest) ?_ (card_endpoints ..)]
  · simp only [mem_ofList, h.mem_consumers]
  · intro x y hy
    obtain ⟨k, c, hc, -, rfl⟩ := h.mem_consumers.1 hy
    exact mem_endpoints hc _

end Dataflow.Graph
