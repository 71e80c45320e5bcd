import Dataflow.Proofs.Graph.WellFormed

/-! Every change of a well-formed graph is undone by its inverse, up to the counters; so a journal
that holds the inverses of all changes leads back to the graph from before the first of them
(`Rewinds`). -/

namespace Dataflow.Graph

/-- Two graphs that differ in their counters alone. -/
structure SameTables (g h : Graph) : Prop where
  nodes : g.nodes = h.nodes
  connections : g.connections = h.connections
  incidence : g.incidence = h.incidence

namespace SameTables

variable {f g h : Graph}

theorem refl (g : Graph) : SameTables g g := ⟨rfl, rfl, rfl⟩

theorem trans (hg : SameTables f g) (hh : SameTables g h) : SameTables f h :=
  ⟨hg.1.trans hh.1, hg.2.trans hh.2, hg.3.trans hh.3⟩

/-- Tables that answer every look-up alike are the same. -/
theorem of_lookups (hn : ∀ a, g.node? a = h.node? a) (hc : ∀ k, g.connection? k = h.connection? k)
    (hi : ∀ i, i ∈ g.incidence ↔ i ∈ h.incidence) : SameTables g h :=
  ⟨Std.ExtTreeMap.ext_getElem? fun {a} => hn a, Std.ExtTreeMap.ext_getElem? fun {k} => hc k,
    Std.ExtTreeSet.ext_mem fun {i} => hi i⟩

theorem restore (hs : SameTables g h) (c : Connection) :
    SameTables (g.restore c) (h.restore c) := by
  obtain ⟨hn, hc, hi⟩ := hs
  exact ⟨hn, by simp only [Graph.restore, hc], by simp only [Graph.restore, hi]⟩

theorem foldl_restore (hs : SameTables g h) (cs : List Connection) :
    SameTables (cs.foldl Graph.restore g) (cs.foldl Graph.restore h) := by
  induction cs generalizing g h with
  | nil => exact hs
  | cons c cs ih => exact ih (hs.restore c)

/-- An inverse looks at the tables alone. -/
theorem undo (hs : SameTables g h) (u : Undo) : SameTables (g.undo u) (h.undo u) := by
  have hs' := hs
  obtain ⟨hn, hc, hi⟩ := hs
  cases u with
  | addedNode id => exact ⟨by simp only [Graph.undo, hn], hc, by simp only [Graph.undo, hi]⟩
  | removedNode n cs =>
    refine foldl_restore (g := { g with nodes := g.nodes.insert n.id n })
      (h := { h with nodes := h.nodes.insert n.id n }) ⟨?_, hc, hi⟩ cs
    simp only [hn]
  | addedConnection k =>
    simp only [Graph.undo, connection?, hc]
    split
    · exact hs'
    · exact ⟨hn, rfl, by simp only [hi]⟩
  | removedConnection c => exact hs'.restore c
  | setParam id key previous =>
    simp only [Graph.undo, node?, hn]
    split
    · exact hs'
    · exact ⟨rfl, hc, hi⟩

theorem foldr_undo (hs : SameTables g h) (us : List Undo) :
    SameTables (us.foldr (fun u g => g.undo u) g) (us.foldr (fun u g => g.undo u) h) := by
  induction us with
  | nil => exact hs
  | cons u us ih => exact ih.undo u

end SameTables

/-- Replaying the journal on `g` leads back to the tables of `h`. With the counters of `h` set back
it is `h` again (`Rewinds.rollback`). -/
def Rewinds (g h : Graph) (journal : List Undo) : Prop :=
  SameTables (journal.foldr (fun u g => g.undo u) g) h

theorem Rewinds.nil (g : Graph) : Rewinds g g [] := .refl g

/-- A change goes to the end of the journal with its inverse. -/
theorem Rewinds.append {f g h : Graph} {us : List Undo} {u : Undo} (hg : Rewinds g h us)
    (hu : SameTables (f.undo u) g) : Rewinds f h (us ++ [u]) := by
  unfold Rewinds
  rw [List.foldr_append]
  exact (hu.foldr_undo us).trans hg

theorem Rewinds.rollback {g h : Graph} {us : List Undo} (hg : Rewinds g h us) :
    g.rollback h.checkpoint us = h := by
  obtain ⟨hn, hc, hi⟩ := hg
  simp only [Graph.rollback, checkpoint, hn, hc, hi]

/-! ## The inverse of each change -/

variable {g g' : Graph} {id : NodeId} {n : Node} {k : ConnectionId} {c : Connection}
  {cs : List Connection} {p q : PortRef} {key : String}

theorem WellFormed.not_node_next (h : g.WellFormed) : g.node? ⟨g.nextNode⟩ = none := by
  cases hn : g.node? ⟨g.nextNode⟩ with
  | none => rfl
  | some n => exact absurd (h.node_lt hn) (Nat.lt_irrefl _)

theorem WellFormed.not_connection_next (h : g.WellFormed) :
    g.connection? ⟨g.nextConnection⟩ = none := by
  cases hc : g.connection? ⟨g.nextConnection⟩ with
  | none => rfl
  | some c => exact absurd (h.connection_lt hc) (Nat.lt_irrefl _)

theorem WellFormed.isSome_of_mem_incidence (h : g.WellFormed) (hi : ⟨id, k⟩ ∈ g.incidence) :
    (g.node? id).isSome := by
  obtain ⟨c, hc, ht⟩ := h.incidence.1 hi
  exact h.ends hc ht

theorem undo_addNode (h : g.WellFormed) (module type : String) (params : Params)
    (ports : List PortSpec) :
    SameTables ((g.addNode module type params ports).2.undo (.addedNode ⟨g.nextNode⟩)) g := by
  refine .of_lookups (fun a => ?_) (fun _ => rfl) (fun ⟨a, k⟩ => ?_)
  · change ((g.nodes.insert _ _).erase _)[a]? = _
    rw [Tables.getElem?_erase, Tables.getElem?_insert]
    split
    · subst a
      exact h.not_node_next.symm
    · rfl
  · refine IncidenceSet.mem_eraseNode.trans ⟨And.right, fun hi => ⟨fun ha => ?_, hi⟩⟩
    have ha : a = ⟨g.nextNode⟩ := ha
    subst ha
    simpa [h.not_node_next] using h.isSome_of_mem_incidence hi

theorem foldl_restore_node? (cs : List Connection) (g : Graph) (a : NodeId) :
    (cs.foldl restore g).node? a = g.node? a := by
  induction cs generalizing g with
  | nil => rfl
  | cons c cs ih => exact ih _

/-- Putting back connections of another graph gives its entries at their numbers. -/
theorem foldl_restore_connection? {f : Graph} (cs : List Connection) (g : Graph)
    (hf : ∀ c ∈ cs, f.connection? c.id = some c) (k : ConnectionId) :
    (cs.foldl restore g).connection? k =
      if k ∈ cs.map (·.id) then f.connection? k else g.connection? k := by
  induction cs generalizing g with
  | nil => simp
  | cons c cs ih =>
    have hc : (g.restore c).connection? k = if k = c.id then some c else g.connection? k :=
      Tables.getElem?_insert ..
    rw [List.foldl_cons, ih _ fun d hd => hf d (.tail _ hd), hc, List.map_cons]
    have := hf c (.head _)
    grind

theorem foldl_restore_incidence (cs : List Connection) (g : Graph) (i : Incidence) :
    i ∈ (cs.foldl restore g).incidence ↔
      i ∈ g.incidence ∨ ∃ c ∈ cs, i = ⟨c.dest.node, c.id⟩ ∨ i = ⟨c.src.node, c.id⟩ := by
  suffices (cs.foldl restore g).incidence = cs.foldl IncidenceSet.attach g.incidence by
    rw [this, WellFormed.mem_foldl_attach]
  induction cs generalizing g with
  | nil => rfl
  | cons c cs ih => exact ih _

theorem undo_removeNode (h : g.WellFormed) (hn : g.node? id = some n) :
    SameTables ((g.without id (g.connectionsOf id)).undo (.removedNode n (g.connectionsOf id)))
      g := by
  obtain rfl := h.node_id hn
  refine .of_lookups (fun a => ?_) (fun k => ?_) (fun ⟨a, k⟩ => ?_)
  · refine (foldl_restore_node? ..).trans ((node?_insert _ a).trans ?_)
    split
    · subst a
      exact hn.symm
    · exact (node?_without a).trans (if_neg ‹_›)
  · refine (foldl_restore_connection? (f := g) _ _ (fun c hc => ?_) k).trans ?_
    · exact (h.mem_connectionsOf.1 hc).1
    split
    · rfl
    · exact (@connection?_without g n.id k _).trans (if_neg ‹_›)
  · refine (foldl_restore_incidence ..).trans ((or_congr_left mem_incidence_without).trans ?_)
    constructor
    · rintro (⟨-, hi, -⟩ | ⟨c, hc, he⟩)
      · exact hi
      obtain ⟨hc, -⟩ := h.mem_connectionsOf.1 hc
      rcases he with he | he
      · cases he
        exact h.incidence.2 ⟨c, hc, .inr rfl⟩
      · cases he
        exact h.incidence.2 ⟨c, hc, .inl rfl⟩
    · intro hi
      obtain ⟨c, hc, ht⟩ := h.incidence.1 hi
      obtain rfl := h.connection_id hc
      by_cases hid : Touches c n.id
      · refine .inr ⟨c, h.mem_connectionsOf.2 ⟨hc, hid⟩, ?_⟩
        rcases ht with rfl | rfl
        · exact .inr rfl
        · exact .inl rfl
      · refine .inl ⟨fun (ha : a = n.id) => hid (ha ▸ ht), hi, fun d hd he => hid ?_⟩
        obtain ⟨hd, hdt⟩ := h.mem_connectionsOf.1 hd
        have hcd : c.id = d.id := congrArg Incidence.connection he
        obtain rfl : d = c := Option.some.inj (hd.symm.trans (hcd ▸ hc))
        exact hdt

theorem undo_setParam (hn : g.node? id = some n) (value : ParamValue) :
    SameTables
      (({ g with
          nodes := g.nodes.insert id { n with params := n.params.insert key value }
          generation := g.generation + 1 } : Graph).undo
        (.setParam id key n.params[key]?)) g := by
  have hlook : ({ g with
      nodes := g.nodes.insert id { n with params := n.params.insert key value }
      generation := g.generation + 1 } : Graph).node? id =
      some { n with params := n.params.insert key value } :=
    (node?_insert _ id).trans (if_pos rfl)
  have hback {ps : Params} (hps : ps = n.params) :
      SameTables { g with
        nodes := (g.nodes.insert id { n with params := n.params.insert key value }).insert id
          { n with params := ps }
        generation := g.generation + 1 } g := by
    subst hps
    refine .of_lookups (fun a => (node?_insert _ a).trans ?_) (fun _ => rfl) (fun _ => Iff.rfl)
    split
    · subst a
      exact hn.symm
    · exact (node?_insert _ a).trans (if_neg ‹_›)
  simp only [undo, hlook]
  cases hv : n.params[key]? with
  | some v => exact hback (Tables.insert_insert_of_getElem? hv value)
  | none => exact hback (Tables.erase_insert_of_getElem? hv value)

theorem undo_insertConnection (h : g.WellFormed) (hid : c.id = ⟨g.nextConnection⟩) :
    SameTables ((g.joined c).undo (.addedConnection c.id)) g := by
  have hlook : (g.joined c).connection? c.id = some c := by simp
  simp only [undo, hlook]
  refine .of_lookups (fun _ => rfl) (fun k => ?_) (fun ⟨a, k⟩ => ?_)
  · refine (Tables.getElem?_erase ..).trans ?_
    split
    · subst k
      rw [hid]
      exact h.not_connection_next.symm
    · exact connection?_joined.trans (if_neg ‹_›)
  · have fresh : k = c.id → ⟨a, k⟩ ∉ g.incidence := by
      rintro rfl hi
      obtain ⟨d, hd, -⟩ := h.incidence.1 hi
      rw [hid, h.not_connection_next] at hd
      cases hd
    change _ ∈ ((g.incidence.attach c).detach c) ↔ _
    rw [IncidenceSet.mem_detach, IncidenceSet.mem_attach]
    grind

theorem undo_removeConnection (h : g.WellFormed) (hc : g.connection? c.id = some c) :
    SameTables ((g.severed c).undo (.removedConnection c)) g := by
  refine .of_lookups (fun _ => rfl) (fun k => ?_) (fun ⟨a, k⟩ => ?_)
  · refine (Tables.getElem?_insert ..).trans ?_
    split
    · subst k
      exact hc.symm
    · exact connection?_severed.trans (if_neg ‹_›)
  · have hsrc : ⟨c.src.node, c.id⟩ ∈ g.incidence := h.incidence.2 ⟨c, hc, .inl rfl⟩
    have hdest : ⟨c.dest.node, c.id⟩ ∈ g.incidence := h.incidence.2 ⟨c, hc, .inr rfl⟩
    change _ ∈ ((g.incidence.detach c).attach c) ↔ _
    rw [IncidenceSet.mem_attach, IncidenceSet.mem_detach]
    grind

end Dataflow.Graph
