import Mathlib.Data.List.Sort
import Dataflow.Graph.Journal
import Dataflow.Proofs.Tables

/-! Well-formed graphs: every entry of a table stands under its own number, every connection joins
nodes of the graph, the incidence is that of the connections, and no number is in use that the
counters have not passed (`Graph.WellFormed`). Everything that is built or changed through the
operations of a graph is well-formed. -/

namespace Dataflow

theorem bind_ok {α β ε : Type} {x : Except ε α} {f : α → Except ε β} {b : β}
    (h : (x >>= f) = .ok b) : ∃ a, x = .ok a ∧ f a = .ok b := by
  cases x with
  | error failure => cases h
  | ok a => exact ⟨a, rfl, h⟩

theorem bind_error {α β ε : Type} {x : Except ε α} {f : α → Except ε β} {failure : ε}
    (h : (x >>= f) = .error failure) :
    x = .error failure ∨ ∃ a, x = .ok a ∧ f a = .error failure := by
  cases x with
  | error e =>
    cases h
    exact .inl rfl
  | ok a => exact .inr ⟨a, rfl, h⟩

namespace Graph

/-- The connection starts or ends at the node. -/
def Touches (c : Connection) (id : NodeId) : Prop := c.src.node = id ∨ c.dest.node = id

/-- Two graphs have the same node, or none, and the same connections there. -/
structure SameAt (g h : Graph) (id : NodeId) : Prop where
  node : g.node? id = h.node? id
  connections : g.connectionsOf id = h.connectionsOf id

theorem SameAt.refl (g : Graph) (id : NodeId) : g.SameAt g id := ⟨rfl, rfl⟩

theorem SameAt.trans {g h i : Graph} {id : NodeId} (hg : g.SameAt h id) (hh : h.SameAt i id) :
    g.SameAt i id :=
  ⟨hg.node.trans hh.node, hg.connections.trans hh.connections⟩

structure WellFormed (g : Graph) : Prop where
  node_id : ∀ {id n}, g.node? id = some n → n.id = id
  connection_id : ∀ {k c}, g.connection? k = some c → c.id = k
  ends : ∀ {k c id}, g.connection? k = some c → Touches c id → (g.node? id).isSome
  incidence : ∀ {id k}, ⟨id, k⟩ ∈ g.incidence ↔ ∃ c, g.connection? k = some c ∧ Touches c id
  node_lt : ∀ {id n}, g.node? id = some n → id.index < g.nextNode
  connection_lt : ∀ {k c}, g.connection? k = some c → k.index < g.nextConnection

variable {g g' : Graph} {id : NodeId} {n : Node} {k : ConnectionId} {c : Connection}
  {cs : List Connection} {p q : PortRef} {key : String}

/-! ## What an operation does when it succeeds -/

theorem requireNode_ok : g.requireNode id = .ok n ↔ g.node? id = some n := by
  unfold requireNode
  cases g.node? id <;> simp

theorem resolve_ok {s : PortSpec} (h : g.resolve p = .ok s) :
    ∃ n, g.node? p.node = some n ∧ n.port? p.key p.role = some s := by
  unfold resolve requireNode at h
  cases hn : g.node? p.node with
  | none => simp [hn, bind, Except.bind] at h
  | some n =>
    simp only [hn, bind, Except.bind] at h
    cases hs : n.port? p.key p.role with
    | none => simp [hs] at h
    | some s' => exact ⟨n, rfl, by simpa [hs] using h⟩

theorem resolve_mem {s : PortSpec} (h : g.resolve p = .ok s) :
    ∃ n, g.node? p.node = some n ∧ s ∈ n.ports ∧ s.key = p.key ∧ s.role = p.role := by
  obtain ⟨n, hn, hs⟩ := resolve_ok h
  have := List.find?_some hs
  exact ⟨n, hn, List.mem_of_find?_eq_some hs, by simp_all⟩

/-- The graph without a node and without some connections that touch it. -/
def without (g : Graph) (id : NodeId) (cs : List Connection) : Graph :=
  { g with
    nodes := g.nodes.erase id
    connections := cs.foldl (fun t c => t.erase c.id) g.connections
    incidence := cs.foldl (fun s c => s.erase ⟨otherEnd c id, c.id⟩) (g.incidence.eraseNode id)
    generation := g.generation + 1 }

theorem removeNode_ok :
    g.removeNode id = .ok ((n, cs), g') ↔
      g.node? id = some n ∧ cs = g.connectionsOf id ∧ g' = g.without id cs := by
  unfold removeNode requireNode
  cases hn : g.node? id with
  | none => simp [bind, Except.bind]
  | some m =>
    simp only [bind, Except.bind, pure, Except.pure, Except.ok.injEq, Prod.mk.injEq,
      Option.some.injEq]
    constructor
    · rintro ⟨⟨rfl, rfl⟩, rfl⟩
      exact ⟨rfl, rfl, rfl⟩
    · rintro ⟨rfl, rfl, rfl⟩
      exact ⟨⟨rfl, rfl⟩, rfl⟩

theorem setParam_ok {value : ParamValue} {previous : Option ParamValue} :
    g.setParam id key value = .ok (previous, g') ↔
      ∃ n, g.node? id = some n ∧ previous = n.params[key]? ∧
        g' = { g with
          nodes := g.nodes.insert id { n with params := n.params.insert key value }
          generation := g.generation + 1 } := by
  unfold setParam requireNode
  cases hn : g.node? id with
  | none => simp [bind, Except.bind]
  | some m =>
    simp only [bind, Except.bind, pure, Except.pure, Except.ok.injEq, Prod.mk.injEq,
      Option.some.injEq, exists_eq_left', @eq_comm _ previous, @eq_comm _ g']

/-- The graph with one connection more. -/
def joined (g : Graph) (c : Connection) : Graph :=
  { g with
    connections := g.connections.insert c.id c
    incidence := g.incidence.attach c
    nextConnection := g.nextConnection + 1
    generation := g.generation + 1 }

theorem insertConnection_ok (h : g.insertConnection p q = .ok (c, g')) :
    c.id = ⟨g.nextConnection⟩ ∧ c.src = p ∧ c.dest.node = q.node ∧ g' = g.joined c ∧
      (g.node? p.node).isSome ∧ (g.node? q.node).isSome := by
  unfold insertConnection at h
  cases hp : g.resolve p with
  | error _ => simp [hp, bind, Except.bind] at h
  | ok s =>
    cases hq : g.resolve q with
    | error _ => simp [hp, hq, bind, Except.bind] at h
    | ok t =>
      simp only [hp, hq, bind, Except.bind, pure, Except.pure, Except.ok.injEq,
        Prod.mk.injEq] at h
      obtain ⟨rfl, rfl⟩ := h
      obtain ⟨_, hm, -⟩ := resolve_ok hp
      obtain ⟨_, hn, -⟩ := resolve_ok hq
      refine ⟨rfl, rfl, ?_, rfl, by simp [hm], by simp [hn]⟩
      unfold assignSlot
      cases t.mode with
      | single => rfl
      | multiple => simp only; split <;> rfl
      | duplicate => simp only; split <;> rfl

/-- The graph with one connection less. -/
def severed (g : Graph) (c : Connection) : Graph :=
  { g with
    connections := g.connections.erase c.id
    incidence := g.incidence.detach c
    generation := g.generation + 1 }

theorem removeConnection_ok (h : g.WellFormed) :
    g.removeConnection k = .ok (c, g') ↔ g.connection? k = some c ∧ g' = g.severed c := by
  unfold removeConnection
  cases hk : g.connection? k with
  | none => simp
  | some d =>
    have hd := h.connection_id hk
    simp only [Except.ok.injEq, Prod.mk.injEq, Option.some.injEq, severed]
    constructor
    · rintro ⟨rfl, rfl⟩
      exact ⟨rfl, by rw [hd]⟩
    · rintro ⟨rfl, rfl⟩
      exact ⟨rfl, by rw [hd]⟩

/-! ## Look-ups in a changed graph -/

theorem node?_insert (t : NodeTable) (a : NodeId) :
    (t.insert id n)[a]? = if a = id then some n else t[a]? :=
  Tables.getElem?_insert t id a n

@[simp] theorem node?_without (a : NodeId) :
    (g.without id cs).node? a = if a = id then none else g.node? a :=
  Tables.getElem?_erase ..

@[simp] theorem connection?_without :
    (g.without id cs).connection? k =
      if k ∈ cs.map (·.id) then none else g.connection? k :=
  Tables.getElem?_foldl_erase ..

@[simp] theorem node?_joined (a : NodeId) : (g.joined c).node? a = g.node? a := rfl

@[simp] theorem connection?_joined :
    (g.joined c).connection? k = if k = c.id then some c else g.connection? k :=
  Tables.getElem?_insert ..

@[simp] theorem node?_severed (a : NodeId) : (g.severed c).node? a = g.node? a := rfl

@[simp] theorem connection?_severed :
    (g.severed c).connection? k = if k = c.id then none else g.connection? k :=
  Tables.getElem?_erase ..

theorem mem_incidence_without {i : Incidence} :
    i ∈ (g.without id cs).incidence ↔
      i.node ≠ id ∧ i ∈ g.incidence ∧ ∀ c ∈ cs, i ≠ ⟨otherEnd c id, c.id⟩ := by
  simp only [without, Tables.mem_foldl_erase, IncidenceSet.mem_eraseNode, List.mem_map, not_exists,
    not_and, and_assoc, @eq_comm _ i, ne_eq]

theorem eq_otherEnd {a : NodeId} (h : Touches c id) (ha : Touches c a) (hne : a ≠ id) :
    a = otherEnd c id := by
  unfold otherEnd
  rcases h with rfl | rfl <;> rcases ha with rfl | rfl <;> grind

theorem lt_of_compare {i j : Incidence} (hn : i.node = j.node) (h : compare i j = .lt) :
    i.connection.index < j.connection.index := by
  have h : (compare i.node j.node).then (compare i.connection j.connection) = .lt := h
  rw [hn, Std.ReflOrd.compare_self] at h
  exact Nat.compare_eq_lt.1 h

theorem pairwise_insertBySlot {cs : List Connection}
    (h : cs.Pairwise fun c d => c.dest.slot ≤ d.dest.slot) (c : Connection) :
    (insertBySlot c cs).Pairwise fun c d => c.dest.slot ≤ d.dest.slot := by
  induction cs with
  | nil => exact List.pairwise_singleton ..
  | cons d ds ih =>
    obtain ⟨hd, hds⟩ := List.pairwise_cons.1 h
    rw [insertBySlot]
    split
    next hle =>
      have hcd : c.dest.slot ≤ d.dest.slot := by
        simp only [slotLe, Bool.or_eq_true, Bool.and_eq_true, decide_eq_true_eq, beq_iff_eq] at hle
        omega
      exact .cons (List.forall_mem_cons.2 ⟨hcd, fun x hx => Nat.le_trans hcd (hd x hx)⟩) h
    next hle =>
      have hdc : d.dest.slot ≤ c.dest.slot := by
        simp only [slotLe, Bool.or_eq_true, decide_eq_true_eq, not_or, Nat.not_lt] at hle
        exact hle.1
      refine .cons (fun x hx => ?_) (ih hds)
      rcases List.mem_cons.1 ((insertBySlot_perm c ds).mem_iff.1 hx) with rfl | hx
      · exact hdc
      · exact hd x hx

/-- The connections that end at a key of a node stand in the order of their slots. -/
theorem pairwise_connectionsInto (g : Graph) (id : NodeId) (key : String) :
    (g.connectionsInto id key).Pairwise fun c d => c.dest.slot ≤ d.dest.slot := by
  rw [connectionsInto]
  generalize (g.connectionsOf id).filter _ = cs
  induction cs with
  | nil => exact .nil
  | cons c cs ih => exact pairwise_insertBySlot ih c

namespace WellFormed

theorem mem_connectionsOf (h : g.WellFormed) :
    c ∈ g.connectionsOf id ↔ g.connection? c.id = some c ∧ Touches c id := by
  rw [Graph.mem_connectionsOf]
  constructor
  · rintro ⟨k, hi, hk⟩
    obtain ⟨d, hd, ht⟩ := h.incidence.1 hi
    obtain rfl : d = c := Option.some.inj (hd.symm.trans hk)
    exact ⟨h.connection_id hk ▸ hk, ht⟩
  · rintro ⟨hk, ht⟩
    exact ⟨c.id, h.incidence.2 ⟨c, hk, ht⟩, hk⟩

theorem mem_connectionsInto (h : g.WellFormed) : c ∈ g.connectionsInto id key ↔
    g.connection? c.id = some c ∧ c.dest.node = id ∧ c.dest.key = key := by
  rw [Graph.mem_connectionsInto, h.mem_connectionsOf]
  exact ⟨fun hc => ⟨hc.1.1, hc.2⟩, fun hc => ⟨⟨hc.1, .inr hc.2.1⟩, hc.2⟩⟩

theorem mem_connectionsFrom (h : g.WellFormed) : c ∈ g.connectionsFrom id key ↔
    g.connection? c.id = some c ∧ c.src.node = id ∧ c.src.key = key := by
  rw [Graph.mem_connectionsFrom, h.mem_connectionsOf]
  exact ⟨fun hc => ⟨hc.1.1, hc.2⟩, fun hc => ⟨⟨hc.1, .inl hc.2.1⟩, hc.2⟩⟩

theorem mem_into (h : g.WellFormed) (hk : g.connection? k = some c) :
    c ∈ g.connectionsInto c.dest.node c.dest.key :=
  h.mem_connectionsInto.2 ⟨h.connection_id hk ▸ hk, rfl, rfl⟩

theorem mem_from (h : g.WellFormed) (hk : g.connection? k = some c) :
    c ∈ g.connectionsFrom c.src.node c.src.key :=
  h.mem_connectionsFrom.2 ⟨h.connection_id hk ▸ hk, rfl, rfl⟩

theorem mem_ids_connectionsOf (h : g.WellFormed) (hc : g.connection? k = some c) :
    k ∈ (g.connectionsOf id).map (·.id) ↔ Touches c id := by
  simp only [List.mem_map, h.mem_connectionsOf]
  constructor
  · rintro ⟨d, ⟨hd, ht⟩, rfl⟩
    obtain rfl : d = c := Option.some.inj (hd.symm.trans hc)
    exact ht
  · intro ht
    obtain rfl := h.connection_id hc
    exact ⟨c, ⟨hc, ht⟩, rfl⟩

/-- The connections of a node stand in the order of their numbers. -/
theorem pairwise_connectionsOf (h : g.WellFormed) :
    (g.connectionsOf id).Pairwise fun c d => c.id.index < d.id.index := by
  have hf := (Std.ExtTreeSet.ordered_toList (t := g.incidence)).filter (·.node = id)
  refine (hf.imp_of_mem fun {i j} hi hj hij => ?_).filterMap
    (R := fun i j => i.connection.index < j.connection.index) _ fun i j hij c hc d hd => ?_
  · simp only [List.mem_filter, decide_eq_true_eq] at hi hj
    exact lt_of_compare (hi.2.trans hj.2.symm) hij
  · rw [h.connection_id hc, h.connection_id hd]
    exact hij

theorem nodup_connectionsOf (h : g.WellFormed) : (g.connectionsOf id).Nodup := by
  refine h.pairwise_connectionsOf.imp fun {c d} hlt (heq : c = d) => ?_
  exact Nat.ne_of_lt hlt (congrArg (fun c => c.id.index) heq)

theorem nodup_connectionsInto (h : g.WellFormed) (id : NodeId) (key : String) :
    (g.connectionsInto id key).Nodup :=
  (sortBySlot_perm _).nodup_iff.2 (h.nodup_connectionsOf.filter _)

theorem nodup_connectionsFrom (h : g.WellFormed) (id : NodeId) (key : String) :
    (g.connectionsFrom id key).Nodup :=
  h.nodup_connectionsOf.filter _

theorem mem_connectionList (h : g.WellFormed) :
    c ∈ g.connectionList ↔ g.connection? c.id = some c := by
  rw [connectionList, Tables.mem_values]
  constructor
  · rintro ⟨k, hk⟩
    exact h.connection_id hk ▸ hk
  · exact fun hc => ⟨c.id, hc⟩

theorem mem_list (h : g.WellFormed) (hk : g.connection? k = some c) : c ∈ g.connectionList :=
  h.mem_connectionList.2 (h.connection_id hk ▸ hk)

theorem node?_eq_some_iff (h : g.WellFormed) :
    g.node? id = some n ↔ n ∈ g.nodeList ∧ n.id = id := by
  rw [nodeList, Tables.mem_values]
  constructor
  · exact fun hn => ⟨⟨id, hn⟩, h.node_id hn⟩
  · rintro ⟨⟨id', hn⟩, rfl⟩
    rwa [h.node_id hn]

theorem connection?_eq_some_iff (h : g.WellFormed) :
    g.connection? k = some c ↔ c ∈ g.connectionList ∧ c.id = k := by
  rw [h.mem_connectionList]
  constructor
  · intro hc
    obtain rfl := h.connection_id hc
    exact ⟨hc, rfl⟩
  · rintro ⟨hc, rfl⟩
    exact hc

/-- All connections stand in the order of their numbers. -/
theorem ordered_connectionList (h : g.WellFormed) :
    g.connectionList.Pairwise fun c d => c.id.index < d.id.index := by
  rw [connectionList, Tables.values_eq, List.pairwise_map]
  refine (Std.ExtTreeMap.ordered_keys_toList (t := g.connections)).imp_of_mem
    fun {a b} ha hb hab => ?_
  rw [h.connection_id (Std.ExtTreeMap.mem_toList_iff_getElem?_eq_some.1 ha),
    h.connection_id (Std.ExtTreeMap.mem_toList_iff_getElem?_eq_some.1 hb)]
  exact Nat.compare_eq_lt.1 hab

theorem pairwise_connectionList (h : g.WellFormed) :
    g.connectionList.Pairwise fun c d => c.id ≠ d.id :=
  h.ordered_connectionList.imp fun hlt he => Nat.ne_of_lt hlt (congrArg ConnectionId.index he)

/-- Connections in the order of their numbers are known from their members. -/
theorem eq_of_pairwise {cs ds : List Connection}
    (hc : cs.Pairwise fun c d => c.id.index < d.id.index)
    (hd : ds.Pairwise fun c d => c.id.index < d.id.index) (hmem : ∀ c, c ∈ cs ↔ c ∈ ds) :
    cs = ds := by
  have : Std.Irrefl fun c d : Connection => c.id.index < d.id.index := ⟨fun _ => Nat.lt_irrefl _⟩
  have : Std.Antisymm fun c d : Connection => c.id.index < d.id.index :=
    ⟨fun _ _ hcd hdc => absurd hcd (Nat.lt_asymm hdc)⟩
  exact hc.eq_of_mem_iff hd hmem

/-- The connections of a node are those of the table that touch it, in the order of the table: both
are in the order of their numbers, and have the same members (`eq_of_pairwise`). -/
theorem connectionsOf_eq_filter (h : g.WellFormed) (id : NodeId) :
    g.connectionsOf id =
      g.connectionList.filter fun c => c.src.node = id ∨ c.dest.node = id := by
  refine eq_of_pairwise h.pairwise_connectionsOf (h.ordered_connectionList.filter _) fun c => ?_
  rw [h.mem_connectionsOf, List.mem_filter, h.mem_connectionList, decide_eq_true_eq]
  rfl

theorem connectionsOf_congr (h : g.WellFormed) (h' : g'.WellFormed)
    (hmem : ∀ c, c ∈ g.connectionsOf id ↔ c ∈ g'.connectionsOf id) :
    g.connectionsOf id = g'.connectionsOf id :=
  eq_of_pairwise h.pairwise_connectionsOf h'.pairwise_connectionsOf hmem

theorem connectionsInto_congr (h : g.WellFormed) (h' : g'.WellFormed)
    (hmem : ∀ c, c ∈ g.connectionsInto id key ↔ c ∈ g'.connectionsInto id key) :
    g.connectionsInto id key = g'.connectionsInto id key := by
  refine congrArg sortBySlot (eq_of_pairwise (h.pairwise_connectionsOf.filter _)
    (h'.pairwise_connectionsOf.filter _) fun c => ?_)
  simpa only [connectionsInto, (sortBySlot_perm _).mem_iff] using hmem c

theorem connectionsFrom_congr (h : g.WellFormed) (h' : g'.WellFormed)
    (hmem : ∀ c, c ∈ g.connectionsFrom id key ↔ c ∈ g'.connectionsFrom id key) :
    g.connectionsFrom id key = g'.connectionsFrom id key :=
  eq_of_pairwise (h.pairwise_connectionsOf.filter _) (h'.pairwise_connectionsOf.filter _) hmem

/-- Where the node is the same and the same connections touch it, the graphs are the same. -/
theorem sameAt (h : g.WellFormed) (h' : g'.WellFormed) (hn : g'.node? id = g.node? id)
    (hc : ∀ c, Touches c id → (g'.connection? c.id = some c ↔ g.connection? c.id = some c)) :
    g'.SameAt g id := by
  refine ⟨hn, connectionsOf_congr h' h fun c => ?_⟩
  rw [h'.mem_connectionsOf, h.mem_connectionsOf]
  exact and_congr_left (hc c)

/-- Removing a node removes exactly the connections that touch it. -/
theorem connection?_without_connectionsOf (h : g.WellFormed) :
    (g.without id (g.connectionsOf id)).connection? k = some c ↔
      g.connection? k = some c ∧ ¬Touches c id := by
  rw [connection?_without]
  constructor
  · intro hc
    split at hc
    · cases hc
    · exact ⟨hc, fun ht => ‹¬_› ((h.mem_ids_connectionsOf hc).2 ht)⟩
  · rintro ⟨hc, ht⟩
    rw [if_neg fun hk => ht ((h.mem_ids_connectionsOf hc).1 hk), hc]

/-! ## What keeps a graph well-formed -/

theorem empty : Graph.empty.WellFormed where
  node_id h := by simp [Graph.empty, node?] at h
  connection_id h := by simp [Graph.empty, connection?] at h
  ends h := by simp [Graph.empty, connection?] at h
  incidence := by simp [Graph.empty, connection?]
  node_lt h := by simp [Graph.empty, node?] at h
  connection_lt h := by simp [Graph.empty, connection?] at h

theorem addNode (h : g.WellFormed) (module type : String) (params : Params)
    (ports : List PortSpec) : (g.addNode module type params ports).2.WellFormed := by
  have look (a : NodeId) : (g.addNode module type params ports).2.node? a =
      if a = ⟨g.nextNode⟩ then some ⟨⟨g.nextNode⟩, module, type, params, ports⟩ else g.node? a :=
    node?_insert ..
  refine ⟨fun {a n} hn => ?_, h.connection_id, fun {k c a} hc ht => ?_, h.incidence,
    fun {a n} hn => ?_, h.connection_lt⟩
  · rw [look] at hn
    split at hn
    · cases hn
      exact Eq.symm ‹_›
    · exact h.node_id hn
  · rw [look]
    split
    · rfl
    · exact h.ends hc ht
  · change a.index < g.nextNode + 1
    rw [look] at hn
    split at hn
    · subst a
      exact Nat.lt_succ_self _
    · exact Nat.lt_succ_of_lt (h.node_lt hn)

theorem without (h : g.WellFormed) (id : NodeId) :
    (g.without id (g.connectionsOf id)).WellFormed := by
  refine ⟨fun {a n} hn => ?_, fun {k c} hc => ?_, fun {k c a} hc ht => ?_, fun {a k} => ?_,
    fun {a n} hn => ?_, fun {k c} hc => ?_⟩
  · rw [node?_without] at hn
    split at hn
    · cases hn
    · exact h.node_id hn
  · exact h.connection_id (h.connection?_without_connectionsOf.1 hc).1
  · obtain ⟨hc, hn⟩ := h.connection?_without_connectionsOf.1 hc
    rw [node?_without, if_neg fun (ha : a = id) => hn (ha ▸ ht)]
    exact h.ends hc ht
  · simp only [mem_incidence_without, h.connection?_without_connectionsOf, h.incidence]
    constructor
    · rintro ⟨ha, ⟨c, hc, ht⟩, hcs⟩
      refine ⟨c, ⟨hc, fun hid => ?_⟩, ht⟩
      obtain rfl := h.connection_id hc
      exact hcs c (h.mem_connectionsOf.2 ⟨hc, hid⟩) (by rw [eq_otherEnd hid ht ha])
    · rintro ⟨c, ⟨hc, hid⟩, ht⟩
      refine ⟨fun (ha : a = id) => hid (ha ▸ ht), ⟨c, hc, ht⟩, fun d hd he => hid ?_⟩
      obtain ⟨hd, htd⟩ := h.mem_connectionsOf.1 hd
      obtain rfl : k = d.id := congrArg Incidence.connection he
      exact Option.some.inj (hd.symm.trans hc) ▸ htd
  · rw [node?_without] at hn
    split at hn
    · cases hn
    · exact h.node_lt hn
  · exact h.connection_lt (h.connection?_without_connectionsOf.1 hc).1

/-- A node may be exchanged for another of the same number. -/
theorem replace (h : g.WellFormed) (hn : (g.node? n.id).isSome) :
    ({ g with nodes := g.nodes.insert n.id n, generation := g.generation + 1 } :
      Graph).WellFormed := by
  have look (a : NodeId) : ({ g with nodes := g.nodes.insert n.id n } : Graph).node? a =
      if a = n.id then some n else g.node? a := node?_insert ..
  obtain ⟨m, hm⟩ := Option.isSome_iff_exists.1 hn
  refine ⟨fun {a n'} hn' => ?_, h.connection_id, fun {k c a} hc ht => ?_, h.incidence,
    fun {a n'} hn' => ?_, h.connection_lt⟩
  · have hn' := (look a).symm.trans hn'
    split at hn'
    · cases hn'
      exact Eq.symm ‹_›
    · exact h.node_id hn'
  · refine (congrArg Option.isSome (look a)).trans ?_
    split
    · rfl
    · exact h.ends hc ht
  · have hn' := (look a).symm.trans hn'
    split at hn'
    · subst a
      exact h.node_lt hm
    · exact h.node_lt hn'

theorem joined (h : g.WellFormed) (hid : c.id = ⟨g.nextConnection⟩)
    (hends : ∀ a, Touches c a → (g.node? a).isSome) : (g.joined c).WellFormed := by
  have fresh : g.connection? c.id = none := by
    cases hc : g.connection? c.id with
    | none => rfl
    | some d => exact absurd (h.connection_lt hc) (by rw [hid]; exact Nat.lt_irrefl _)
  refine ⟨h.node_id, fun {k d} hd => ?_, fun {k d a} hd ht => ?_, fun {a k} => ?_, h.node_lt,
    fun {k d} hd => ?_⟩
  · rw [connection?_joined] at hd
    split at hd
    · cases hd
      exact Eq.symm ‹_›
    · exact h.connection_id hd
  · rw [connection?_joined] at hd
    split at hd
    · cases hd
      exact hends a ht
    · exact h.ends hd ht
  · rw [connection?_joined]
    simp only [Graph.joined, IncidenceSet.mem_attach, h.incidence, Incidence.mk.injEq]
    by_cases hk : k = c.id
    · subst hk
      simp only [and_true, fresh, reduceCtorEq, false_and, exists_false, or_false, if_true,
        Option.some.injEq, exists_eq_left', Touches, @eq_comm _ a]
      exact or_comm
    · simp only [hk, and_false, false_or, if_false]
  · change k.index < g.nextConnection + 1
    rw [connection?_joined] at hd
    split at hd
    · subst k
      rw [hid]
      exact Nat.lt_succ_self _
    · exact Nat.lt_succ_of_lt (h.connection_lt hd)

theorem insertConnection (h : g.WellFormed) (hc : g.insertConnection p q = .ok (c, g')) :
    g'.WellFormed := by
  obtain ⟨hid, hs, hd, rfl, hp, hq⟩ := insertConnection_ok hc
  refine h.joined hid fun a ht => ?_
  rcases ht with rfl | rfl
  · rw [hs]
    exact hp
  · rw [hd]
    exact hq

theorem severed (h : g.WellFormed) (hk : g.connection? c.id = some c) :
    (g.severed c).WellFormed := by
  have sub {k d} (hd : (g.severed c).connection? k = some d) :
      k ≠ c.id ∧ g.connection? k = some d := by
    rw [connection?_severed] at hd
    split at hd
    · cases hd
    · exact ⟨‹_›, hd⟩
  refine ⟨h.node_id, fun hd => h.connection_id (sub hd).2, fun hd => h.ends (sub hd).2,
    fun {a k} => ?_, h.node_lt, fun hd => h.connection_lt (sub hd).2⟩
  rw [connection?_severed]
  simp only [Graph.severed, IncidenceSet.mem_detach, h.incidence, ne_eq, Incidence.mk.injEq]
  by_cases hkc : k = c.id
  · subst hkc
    simp only [and_true, if_true, reduceCtorEq, false_and, exists_false, iff_false, not_and,
      hk, Option.some.injEq, exists_eq_left', Touches, not_or]
    grind
  · simp only [hkc, and_false, not_false_eq_true, true_and, if_false]

/-! ## Graphs from parts -/

theorem mem_foldl_attach (cs : List Connection) (s : IncidenceSet) (i : Incidence) :
    i ∈ cs.foldl IncidenceSet.attach s ↔
      i ∈ s ∨ ∃ c ∈ cs, i = ⟨c.dest.node, c.id⟩ ∨ i = ⟨c.src.node, c.id⟩ := by
  induction cs generalizing s with
  | nil => simp
  | cons c cs ih =>
    simp only [List.foldl_cons, ih, IncidenceSet.mem_attach, List.mem_cons, exists_eq_or_imp]
    grind

theorem mem_incidenceOf {t : ConnectionTable}
    (ht : ∀ {k : ConnectionId} {c}, t[k]? = some c → c.id = k)
    {id : NodeId} {k : ConnectionId} :
    ⟨id, k⟩ ∈ incidenceOf t ↔ ∃ c, t[k]? = some c ∧ Touches c id := by
  rw [incidenceOf, mem_foldl_attach]
  simp only [Std.ExtTreeSet.not_mem_empty, false_or, Tables.mem_values, Incidence.mk.injEq]
  constructor
  · rintro ⟨c, ⟨k', hc⟩, h⟩
    obtain rfl := ht hc
    rcases h with ⟨rfl, rfl⟩ | ⟨rfl, rfl⟩
    · exact ⟨c, hc, .inr rfl⟩
    · exact ⟨c, hc, .inl rfl⟩
  · rintro ⟨c, hc, h⟩
    obtain rfl := ht hc
    rcases h with rfl | rfl
    · exact ⟨c, ⟨_, hc⟩, .inr ⟨rfl, rfl⟩⟩
    · exact ⟨c, ⟨_, hc⟩, .inl ⟨rfl, rfl⟩⟩

/-- Rebuilt from the connections, the incidence is the one there was. -/
theorem rebuildIncidence (h : g.WellFormed) : g.rebuildIncidence = g := by
  suffices incidenceOf g.connections = g.incidence by
    rw [Graph.rebuildIncidence, this]
  refine Std.ExtTreeSet.ext_mem fun {i} => ?_
  exact (mem_incidenceOf h.connection_id).trans h.incidence.symm

theorem le_foldl_max (is : List Nat) (m : Nat) : m ≤ is.foldl (fun n i => max n (i + 1)) m := by
  induction is generalizing m with
  | nil => exact Nat.le_refl m
  | cons i is ih => exact Nat.le_trans (Nat.le_max_left ..) (ih _)

theorem lt_nextAfter {is : List Nat} {i : Nat} (h : i ∈ is) : i < nextAfter is := by
  suffices ∀ m, i < is.foldl (fun n i => max n (i + 1)) m from this 0
  induction is with
  | nil => cases h
  | cons j is ih =>
    intro m
    rcases List.mem_cons.1 h with rfl | h
    · exact Nat.lt_of_lt_of_le (Nat.lt_of_succ_le (Nat.le_max_right m _)) (le_foldl_max is _)
    · exact ih h _

theorem ofParts (nodes : List Node) (connections : List Connection) :
    (Graph.ofParts nodes connections).WellFormed := by
  have hnode {id n} (h : (Graph.ofParts nodes connections).node? id = some n) :
      n ∈ nodes ∧ id = n.id := by
    obtain ⟨m, hm, rfl, rfl⟩ | h := Tables.of_getElem?_foldl_insert Node.id (fun n => n) nodes ∅ h
    · exact ⟨hm, rfl⟩
    · simp at h
  have hconn {k c} (h : (Graph.ofParts nodes connections).connection? k = some c) :
      (c ∈ connections ∧ ∀ a, Touches c a →
        ((Graph.ofParts nodes connections).node? a).isSome) ∧ k = c.id := by
    obtain ⟨d, hd, rfl, rfl⟩ | h := Tables.of_getElem?_foldl_insert Connection.id (fun c => c) _ ∅ h
    · simp only [List.mem_filter, Bool.and_eq_true, Std.ExtTreeMap.contains_eq_isSome_getElem?]
        at hd
      refine ⟨⟨hd.1, fun a ha => ?_⟩, rfl⟩
      rcases ha with rfl | rfl
      · exact hd.2.1
      · exact hd.2.2
    · simp at h
  refine ⟨fun h => (hnode h).2.symm, fun h => (hconn h).2.symm, fun h ht => (hconn h).1.2 _ ht,
    mem_incidenceOf fun h => (hconn h).2.symm, fun {id n} h => ?_, fun {k c} h => ?_⟩
  · obtain ⟨hn, rfl⟩ := hnode h
    exact lt_nextAfter (List.mem_map_of_mem hn)
  · obtain ⟨⟨hc, -⟩, rfl⟩ := hconn h
    exact lt_nextAfter (List.mem_map_of_mem hc)

end WellFormed

end Graph

end Dataflow
