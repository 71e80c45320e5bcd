import Dataflow.Proofs.Definition.Flowing
import Dataflow.Proofs.Engine.Settled
import Dataflow.Proofs.Graph.Left
import Dataflow.Proofs.Scope

/-! The search for open iterators.

A collector goes through all that feeds it, up to other collectors. It comes upon exactly those
iterators that are not bound yet and lead to it past no other collector, each once, whether or not
there are cycles on the way (`Found`). In a graph without a cycle each one comes after those that
lead to it in turn. What holds of a search on its way is `Searched`. -/

namespace Dataflow

open Relation (ReflTransGen TransGen)

/-- One node feeds another through an input or a property that the other declares. -/
def Graph.Supplies (g : Graph) (a b : NodeId) : Prop :=
  ∃ n s c, g.node? b = some n ∧ s ∈ n.destinations ∧ c ∈ g.connectionsInto b s.key ∧ c.src.node = a

instance (g : Graph) (a b : NodeId) : Decidable (g.Supplies a b) :=
  decidable_of_iff ((g.node? b).any fun n =>
      n.destinations.any fun s => (g.connectionsInto b s.key).any (·.src.node = a)) <| by
    simp only [Option.any_eq_true, List.any_eq_true, decide_eq_true_eq, Graph.Supplies,
      exists_and_left]

theorem Graph.WellFormed.feeds_of_supplies {g : Graph} (h : g.WellFormed) {a b : NodeId}
    (hs : g.Supplies a b) : g.Feeds a b := by
  obtain ⟨n, s, c, -, -, hc, rfl⟩ := hs
  exact h.feeds_of_mem_connectionsInto hc

theorem Plan.mem_distinct {ids : List NodeId} {a : NodeId} : a ∈ distinct ids ↔ a ∈ ids := by
  have go (seen : List NodeId) :
      a ∈ ids.foldl (fun seen id => if id ∈ seen then seen else seen ++ [id]) seen ↔
        a ∈ ids ∨ a ∈ seen := by
    induction ids generalizing seen with
    | nil => simp
    | cons id ids ih =>
      rw [List.foldl_cons, ih]
      split <;> grind
  simpa [distinct] using go []

namespace Engine

variable {e : Engine} {S : Scope} {a b c x y : NodeId}

/-! ## Open iterators -/

def isIterator (e : Engine) (id : NodeId) : Bool :=
  (e.graph.node? id).any fun n => (e.definition n).isIterator

def isCollector (e : Engine) (id : NodeId) : Bool :=
  (e.graph.node? id).any fun n => (e.definition n).isCollector

/-- An iterator is open at what it feeds, as far as the next collector. -/
inductive Open (e : Engine) (x : NodeId) : NodeId → Prop
  | supplier {b : NodeId} : e.isIterator x → e.graph.Supplies x b → Open e x b
  | through {a b : NodeId} : Open e x a → e.isCollector a = false → e.graph.Supplies a b →
    Open e x b

/-- What feeds a node and collects nothing: a search goes on from the node to it, and past it. So a
path of `Relays` runs past no collector. -/
def Relays (e : Engine) (a b : NodeId) : Prop := e.isCollector a = false ∧ e.graph.Supplies a b

instance (e : Engine) (a b : NodeId) : Decidable (e.Relays a b) :=
  inferInstanceAs (Decidable (_ ∧ _))

/-- What a search takes up where it comes upon it: an iterator that collects nothing and is not
bound. -/
structure Eligible (e : Engine) (S : Scope) (x : NodeId) : Prop where
  isIterator : e.isIterator x
  not_collector : e.isCollector x = false
  unbound : S.isBound x = false

theorem isCollector_eq {n : Node} (hn : e.graph.node? a = some n) :
    e.isCollector a = (e.definition n).isCollector := by
  rw [isCollector, hn, Option.any_some]

theorem isIterator_eq {n : Node} (hn : e.graph.node? a = some n) :
    e.isIterator a = (e.definition n).isIterator := by
  rw [isIterator, hn, Option.any_some]

theorem node_of_isIterator (h : e.isIterator a) : ∃ n, e.graph.node? a = some n := by
  obtain ⟨n, hn, -⟩ := (Option.any_eq_true ..).1 h
  exact ⟨n, hn⟩

theorem not_collector_of_isIterator (hc : e.catalogue.All NodeDefinition.Flowing)
    (h : e.isIterator a) : e.isCollector a = false := by
  obtain ⟨n, hn⟩ := node_of_isIterator h
  rw [isIterator_eq hn] at h
  rw [isCollector_eq hn]
  exact (hc n.module n.type).apart h

theorem Relays.feeds (hg : e.graph.WellFormed) (h : e.Relays a b) : e.graph.Feeds a b :=
  hg.feeds_of_supplies h.2

theorem feeds_of_relays (hg : e.graph.WellFormed) (h : TransGen e.Relays a b) :
    TransGen e.graph.Feeds a b :=
  TransGen.mono (fun _ _ => Relays.feeds hg) a b h

theorem Open.feeds (hg : e.graph.WellFormed) (h : e.Open x b) : TransGen e.graph.Feeds x b := by
  induction h with
  | supplier _ hs => exact .single (hg.feeds_of_supplies hs)
  | through _ _ hs ih => exact ih.tail (hg.feeds_of_supplies hs)

theorem Open.isIterator (h : e.Open x b) : e.isIterator x := by
  induction h with
  | supplier hx _ => exact hx
  | through _ _ _ ih => exact ih

theorem open_of_relays (hx : e.isIterator x) (h : TransGen e.Relays x b) : e.Open x b := by
  induction h with
  | single h => exact .supplier hx h.2
  | tail _ h ih => exact .through ih h.1 h.2

/-- Where no iterator is a collector as well, what is open is what leads there. -/
theorem Open.relays (hc : e.catalogue.All NodeDefinition.Flowing) (h : e.Open x b) :
    TransGen e.Relays x b := by
  induction h with
  | supplier hx hs => exact .single ⟨not_collector_of_isIterator hc hx, hs⟩
  | through _ ha hs ih => exact ih.tail ⟨ha, hs⟩

/-! ## The state of a search -/

/-- The state of a search from `c`, while the nodes of `active` are gone through: every other node
seen is done with, and so are all that lie beyond it. -/
structure Searched (e : Engine) (S : Scope) (c : NodeId) (active : NodeId → Prop)
    (st : NodeSet × List NodeId) : Prop where
  seen : ∀ a, active a → a ∈ st.1
  closed : ∀ b ∈ st.1, ¬active b → e.isCollector b = false → ∀ a, e.graph.Supplies a b → a ∈ st.1
  entry : ∀ x, x ∈ st.2 ↔ x ∈ st.1 ∧ ¬active x ∧ e.Eligible S x
  relayed : ∀ x ∈ st.2, TransGen e.Relays x c
  ordered : e.graph.Acyclic → ∀ pre x post, st.2 = pre ++ x :: post →
    ∀ y, e.Eligible S y → TransGen e.Relays y x → y ∈ pre
  nodup : st.2.Nodup

/-- A node is seen, and so are all that were. -/
def Sees (id : NodeId) (st st' : NodeSet × List NodeId) : Prop :=
  id ∈ st'.1 ∧ ∀ a ∈ st.1, a ∈ st'.1

namespace Searched

variable {active : NodeId → Prop} {st : NodeSet × List NodeId} {id : NodeId}

theorem start (c : NodeId) : e.Searched S c (· = c) (NodeSet.ofList [c], []) where
  seen a ha := by simpa [Graph.mem_ofList] using ha
  closed b hb hne := absurd (by simpa [Graph.mem_ofList] using hb) hne
  entry x := by simp [Graph.mem_ofList]; grind
  relayed := by simp
  ordered := by simp
  nodup := .nil

/-- A node that is not seen yet becomes active. -/
theorem enter (h : e.Searched S c active st) (hid : id ∉ st.1) :
    e.Searched S c (fun a => active a ∨ a = id) (st.1.insert id, st.2) where
  seen a ha := by
    rw [Tables.mem_insert]
    exact ha.symm.imp_right (h.seen a)
  closed b hb hn hcoll a hs := by
    rw [Tables.mem_insert] at hb ⊢
    rcases hb with rfl | hb
    · exact absurd (.inr rfl) hn
    · exact .inr (h.closed b hb (fun hb => hn (.inl hb)) hcoll a hs)
  entry x := by
    rw [h.entry, Tables.mem_insert]
    grind
  relayed := h.relayed
  ordered := h.ordered
  nodup := h.nodup

/-- A node that is not taken up is done with when all that feeds it is seen. -/
theorem leave (h : e.Searched S c (fun a => active a ∨ a = id) st) (hid : ¬e.Eligible S id)
    (hup : e.isCollector id = false → ∀ a, e.graph.Supplies a id → a ∈ st.1) :
    e.Searched S c active st where
  seen a ha := h.seen a (.inl ha)
  closed b hb hn hcoll := by
    by_cases he : b = id
    · subst he
      exact hup hcoll
    · exact h.closed b hb (by simp [hn, he]) hcoll
  entry x := by
    rw [h.entry]
    grind
  relayed := h.relayed
  ordered := h.ordered
  nodup := h.nodup

/-- An iterator is taken up after all that leads to it. -/
theorem push (h : e.Searched S c (fun a => active a ∨ a = id) st) (hactive : ¬active id)
    (hid : e.Eligible S id) (hpath : TransGen e.Relays id c)
    (hup : ∀ a, e.graph.Supplies a id → a ∈ st.1)
    (hfound : e.graph.Acyclic → ∀ y, e.Eligible S y → TransGen e.Relays y id → y ∈ st.2) :
    e.Searched S c active (st.1, st.2 ++ [id]) where
  seen a ha := h.seen a (.inl ha)
  closed b hb hn hcoll := by
    by_cases he : b = id
    · subst he
      exact hup
    · exact h.closed b hb (by simp [hn, he]) hcoll
  entry x := by
    rw [List.mem_append, h.entry, List.mem_singleton]
    have := h.seen id (.inr rfl)
    grind
  relayed x hx := by
    rcases List.mem_append.1 hx with hx | hx
    · exact h.relayed x hx
    · obtain rfl := List.mem_singleton.1 hx
      exact hpath
  ordered ha pre x post hsplit y hy hyx := by
    rcases List.eq_nil_or_concat post with rfl | ⟨post, z, rfl⟩
    · obtain ⟨rfl, hx⟩ := List.append_inj' hsplit rfl
      obtain rfl : id = x := by simpa using hx
      exact hfound ha y hy hyx
    · rw [List.concat_eq_append, ← List.cons_append, ← List.append_assoc] at hsplit
      obtain ⟨hpre, -⟩ := List.append_inj' hsplit rfl
      exact h.ordered ha pre x post hpre y hy hyx
  nodup := by
    refine List.nodup_append.2 ⟨h.nodup, List.nodup_singleton id, fun x hx y hy => ?_⟩
    obtain rfl := List.mem_singleton.1 hy
    rintro rfl
    exact ((h.entry x).1 hx).2.1 (.inr rfl)

/-- When all that feeds a node is seen, all that leads to it is, unless it leads there through
another node that is still gone through. -/
theorem mem_of_relays (h : e.Searched S c active st) (hup : ∀ a, e.graph.Supplies a b → a ∈ st.1)
    (hactive : ∀ a, active a → TransGen e.Relays a b → a = b) (hx : TransGen e.Relays x b) :
    x ∈ st.1 := by
  induction hx using TransGen.head_induction_on with
  | single hs => exact hup _ hs.2
  | @head x y hs hy ih =>
    by_cases ha : active y
    · rw [hactive y ha hy] at hs
      exact hup x hs.2
    · obtain ⟨_, hcoll, -⟩ := TransGen.head'_iff.1 hy
      exact h.closed y ih ha hcoll.1 x hs.2

/-- When all that feeds a node is seen, what leads to it is found: nothing that is still gone
through leads there, for the node lies before all of that. -/
theorem found_of_relays (h : e.Searched S c (fun a => active a ∨ a = id) st)
    (hg : e.graph.WellFormed) (hactive : ∀ a, active a → TransGen e.graph.Feeds id a)
    (hup : ∀ a, e.graph.Supplies a id → a ∈ st.1) (hacyclic : e.graph.Acyclic)
    (hx : e.Eligible S x) (hpath : TransGen e.Relays x id) : x ∈ st.2 := by
  have hnot (a : NodeId) (ha : active a ∨ a = id) : ¬TransGen e.Relays a id := by
    intro hr
    have hr := feeds_of_relays hg hr
    rcases ha with ha | rfl
    · exact hacyclic id ((hactive a ha).trans hr)
    · exact hacyclic a hr
  refine (h.entry x).2 ⟨?_, fun ha => hnot x ha hpath, hx⟩
  exact h.mem_of_relays hup (fun a ha hr => absurd hr (hnot a ha)) hpath

end Searched

/-! ## What a search finds -/

/-- What a collector comes upon: the iterators that lead to it, each once, and in a graph without a
cycle each after those that lead to it in turn. This holds of what `Plan.openEntries` gives
(`openEntries_found`). -/
structure Found (e : Engine) (S : Scope) (c : NodeId) (ids : List NodeId) : Prop where
  mem : ∀ x, x ∈ ids ↔ x ≠ c ∧ e.Eligible S x ∧ TransGen e.Relays x c
  ordered : e.graph.Acyclic → ∀ pre x post, ids = pre ++ x :: post →
    ∀ y, e.Eligible S y → TransGen e.Relays y x → y ∈ pre
  nodup : ids.Nodup

/-- At the end nothing but the collector itself is still gone through. -/
theorem Searched.found {st : NodeSet × List NodeId} (h : e.Searched S c (· = c) st)
    (hup : ∀ a, e.graph.Supplies a c → a ∈ st.1) : e.Found S c st.2 where
  mem x := by
    rw [h.entry]
    constructor
    · rintro ⟨hseen, hne, hx⟩
      exact ⟨hne, hx, h.relayed x ((h.entry x).2 ⟨hseen, hne, hx⟩)⟩
    · rintro ⟨hne, hx, hpath⟩
      exact ⟨h.mem_of_relays hup (fun _ ha _ => ha) hpath, hne, hx⟩
  ordered := h.ordered
  nodup := h.nodup

/-- What a collector iterates over: iterators that are open at it, each after those that are open at
it in turn. -/
structure Entries (e : Engine) (S : Scope) (c : NodeId) (ids : List NodeId) : Prop where
  opened : ∀ x ∈ ids, e.Open x c ∧ S.isBound x = false
  ordered : ∀ pre x post, ids = pre ++ x :: post → ∀ y, e.Open y x → y ∈ pre ∨ S.isBound y
  nodup : ids.Nodup

theorem Found.entries {ids : List NodeId} (h : e.Found S c ids) (ha : e.graph.Acyclic)
    (hc : e.catalogue.All NodeDefinition.Flowing) : e.Entries S c ids where
  opened x hx := by
    obtain ⟨-, hx, hpath⟩ := (h.mem x).1 hx
    exact ⟨open_of_relays hx.isIterator hpath, hx.unbound⟩
  ordered pre x post hsplit y hy := by
    rw [or_iff_not_imp_right, Bool.not_eq_true]
    intro hb
    have hi := hy.isIterator
    exact h.ordered ha pre x post hsplit y ⟨hi, not_collector_of_isIterator hc hi, hb⟩
      (hy.relays hc)
  nodup := h.nodup

/-! ## Searching -/

variable {P : Query → Prop} {st : NodeSet × List NodeId}

theorem visitPlan_within {right : (q : Query) → q.Answer → Prop} (hnode : ∀ id, P (.node id))
    (hinto : ∀ id key, P (.connectionsInto id key))
    (hvisit : ∀ id seen found, P (.visit id S seen found)) (id : NodeId) (seen : NodeSet)
    (found : List NodeId) : (e.visitPlan id S seen found).Within P right := by
  unfold visitPlan
  split
  · exact .pure _
  refine .bind (.query (hnode id)) fun n => ?_
  cases n with
  | none => exact .pure _
  | some n =>
    dsimp only
    split
    · exact .pure _
    refine .bind (Plan.suppliers_within (hinto n.id)) fun ids => ?_
    refine .bind ?_ fun st => .pure _
    exact Plan.Ends.foldlM trivial fun st _ a _ => Plan.Within.query (hvisit a st.1 st.2)

theorem suppliers_ends {right : (q : Query) → q.Answer → Prop}
    (hright : ∀ {id key cs}, right (.connectionsInto id key) cs →
      cs = e.graph.connectionsInto id key)
    {n : Node} {id : NodeId} (hn : e.graph.node? id = some n) (hid : n.id = id)
    (hP : ∀ key, P (.connectionsInto id key)) :
    (Plan.suppliers n).Ends P right fun ids => ∀ a, a ∈ ids ↔ e.graph.Supplies a id := by
  subst hid
  refine .bind (.mapM fun s _ => .query (hP s.key)) fun conns hconns => .pure fun a => ?_
  obtain rfl : (n.destinations.map fun s => e.graph.connectionsInto n.id s.key) = conns := by
    rw [← List.forall₂_eq_eq_eq, List.forall₂_map_left_iff]
    exact hconns.imp fun s cs hcs => (hright hcs).symm
  simp only [Plan.mem_distinct, List.mem_map, List.mem_flatten, Graph.Supplies, hn]
  grind

variable {o : Precedence}

/-- A search goes on at each of some nodes. -/
theorem visitAll_ends {I : NodeSet × List NodeId → Prop} {ids : List NodeId}
    (hids : ∀ a ∈ ids, ∀ st, I st → P (.visit a S st.1 st.2) ∧
      ∀ st', e.Right o (.visit a S st.1 st.2) st' → I st' ∧ Sees a st st') (h : I st) :
    (Plan.visitAll S st ids).Ends P (e.Right o) fun st' =>
      I st' ∧ (∀ a ∈ ids, a ∈ st'.1) ∧ ∀ a ∈ st.1, a ∈ st'.1 := by
  induction ids generalizing st with
  | nil => exact .pure ⟨h, by simp, fun _ h => h⟩
  | cons id ids ih =>
    rw [Plan.visitAll, List.foldlM_cons]
    obtain ⟨hP, hright⟩ := hids id List.mem_cons_self st h
    refine .bind (.query hP) fun st' hst' => ?_
    obtain ⟨h', hid, hsub⟩ := hright st' hst'
    refine (ih (fun a ha => hids a (List.mem_cons_of_mem _ ha)) h').mono fun st'' hst'' => ?_
    obtain ⟨h'', hall, hsub'⟩ := hst''
    refine ⟨h'', fun a ha => ?_, fun a ha => hsub' a (hsub a ha)⟩
    rcases List.mem_cons.1 ha with rfl | ha
    · exact hsub' a hid
    · exact hall a ha

section Visit

variable (hg : e.graph.WellFormed)

include hg

/-- The induction is on the nodes that are not seen yet, which `Graph.nodesLeft` counts. What is
still gone through lies on the way from the node to the collector, so that nothing of it leads back
unless there is a cycle. -/
theorem visit_searched (id : NodeId) {active : NodeId → Prop}
    (hactive : ∀ a, active a → TransGen e.graph.Feeds id a)
    (hpath : e.isCollector id = false → TransGen e.Relays id c) (h : e.Searched S c active st) :
    e.Settles o (.visit id S st.1 st.2) ∧ ∀ st', e.Right o (.visit id S st.1 st.2) st' →
      e.Searched S c active st' ∧ Sees id st st' := by
  induction hk : e.graph.nodesLeft st.1.contains using Nat.strongRecOn
    generalizing id active st with
  | ind k ih =>
    subst hk
    refine right_of_ends rfl ?_
    unfold visitPlan
    split
    next hseen => exact .pure ⟨h, Std.ExtTreeSet.contains_iff_mem.1 hseen, fun _ ha => ha⟩
    next hseen =>
    have hid : id ∉ st.1 := fun hid => hseen (Std.ExtTreeSet.contains_iff_mem.2 hid)
    have henter := h.enter hid
    have hsees : Sees id st (st.1.insert id, st.2) :=
      ⟨by simp, fun a ha => Std.ExtTreeSet.mem_insert.2 (.inr ha)⟩
    refine .bind (.query (settles_node id)) fun n hn => ?_
    cases n with
    | none =>
      have hn := (right_node hn).symm
      refine .pure ⟨henter.leave (fun hx => ?_) fun _ a hs => ?_, hsees⟩
      · obtain ⟨n, hn'⟩ := node_of_isIterator hx.isIterator
        cases hn.symm.trans hn'
      · obtain ⟨n, -, -, hn', -⟩ := hs
        cases hn.symm.trans hn'
    | some n =>
      have hn := (right_node hn).symm
      have hcoll := isCollector_eq hn
      dsimp only
      split
      next hd =>
        rw [hd] at hcoll
        refine .pure ⟨henter.leave (fun hx => ?_) fun hcoll' => ?_, hsees⟩
        · exact absurd (hcoll.symm.trans hx.not_collector) (by simp)
        · exact absurd (hcoll.symm.trans hcoll') (by simp)
      next hd =>
      rw [Bool.eq_false_iff.2 hd] at hcoll
      have hpath := hpath hcoll
      refine .bind (suppliers_ends right_connectionsInto hn (hg.node_id hn)
        (settles_connectionsInto id)) fun ids hids => ?_
      refine .bind (visitAll_ends (I := fun st' =>
        e.Searched S c (fun a => active a ∨ a = id) st' ∧ ∀ a ∈ st.1.insert id, a ∈ st'.1)
        ?_ ⟨henter, fun _ ha => ha⟩) fun st' hst' => ?_
      · rintro a hmem st' ⟨hst', hsub⟩
        have hs := (hids a).1 hmem
        have hf := hg.feeds_of_supplies hs
        have hleft : e.graph.nodesLeft st'.1.contains < e.graph.nodesLeft st.1.contains :=
          hg.nodesLeft_lt (fun b hb => Std.ExtTreeSet.contains_iff_mem.2
            (hsub b (hsees.2 b (Std.ExtTreeSet.contains_iff_mem.1 hb)))) (by simp [hn])
            (Bool.eq_false_iff.2 hseen) (Std.ExtTreeSet.contains_iff_mem.2 (hsub id hsees.1))
        obtain ⟨hsettles, hright⟩ := ih _ hleft a
          (fun b hb => hb.elim (fun hb => .head hf (hactive b hb)) fun hb => hb ▸ .single hf)
          (fun ha => .head ⟨ha, hs⟩ hpath) hst' rfl
        refine ⟨hsettles, fun st'' hst'' => ?_⟩
        obtain ⟨hst'', hsees'⟩ := hright st'' hst''
        exact ⟨⟨hst'', fun b hb => hsees'.2 b (hsub b hb)⟩, hsees'⟩
      obtain ⟨⟨hst', hsub⟩, hall, -⟩ := hst'
      have hup (a : NodeId) (hs : e.graph.Supplies a id) : a ∈ st'.1 := hall a ((hids a).2 hs)
      have hsees : Sees id st st' := ⟨hsub id hsees.1, fun a ha => hsub a (hsees.2 a ha)⟩
      refine .pure ?_
      have hiter := isIterator_eq hn
      split
      next hi =>
        rw [Bool.and_eq_true, Bool.not_eq_true'] at hi
        have hfound (hacyclic : e.graph.Acyclic) (y : NodeId) (hy : e.Eligible S y)
            (hyid : TransGen e.Relays y id) : y ∈ st'.2 :=
          hst'.found_of_relays hg hactive hup hacyclic hy hyid
        exact ⟨hst'.push (fun ha => hid (h.seen id ha)) ⟨hiter.trans hi.1, hcoll, hi.2⟩ hpath hup
          hfound, hsees⟩
      next hi =>
        refine ⟨hst'.leave (fun hx => hi ?_) fun _ => hup, hsees⟩
        simp [← hiter, hx.isIterator, hx.unbound]

theorem openEntries_found (hP : ∀ id, P (.node id)) (hinto : ∀ id key, P (.connectionsInto id key))
    (hvisit : ∀ id seen found, e.Settles o (.visit id S seen found) → P (.visit id S seen found)) :
    (Plan.openEntries c S).Ends P (e.Right o) (e.Found S c) := by
  refine .bind (.query (hP c)) fun n hn => ?_
  cases n with
  | none =>
    have hn := (right_node hn).symm
    refine .pure ((Searched.start c).found fun a hs => ?_)
    obtain ⟨n, -, -, hn', -⟩ := hs
    cases hn.symm.trans hn'
  | some n =>
    have hn := (right_node hn).symm
    refine .bind (suppliers_ends right_connectionsInto hn (hg.node_id hn) (hinto c))
      fun ids hids => ?_
    refine .bind (visitAll_ends (I := e.Searched S c (· = c)) ?_ (.start c))
      fun st hst => .pure (hst.1.found fun a hs => hst.2.1 a ((hids a).2 hs))
    intro a hmem st hst
    have hs := (hids a).1 hmem
    obtain ⟨hsettles, hsearched⟩ := visit_searched hg a
      (fun b (hb : b = c) => hb ▸ .single (hg.feeds_of_supplies hs))
      (fun ha => .single ⟨ha, hs⟩) hst
    exact ⟨hvisit _ _ _ hsettles, hsearched⟩

theorem openEntries_ends (ha : e.graph.Acyclic) (hc : e.catalogue.All NodeDefinition.Flowing)
    (hP : ∀ id, P (.node id)) (hinto : ∀ id key, P (.connectionsInto id key))
    (hvisit : ∀ id seen found, e.Settles o (.visit id S seen found) → P (.visit id S seen found)) :
    (Plan.openEntries c S).Ends P (e.Right o) (e.Entries S c) :=
  (openEntries_found hg hP hinto hvisit).mono fun _ h => h.entries ha hc

end Visit

end Engine

end Dataflow
