import Dataflow.Proofs.Engine.Delivery
import Dataflow.Proofs.ValueType.Clean
import Dataflow.Proofs.ValueType.Mismatch

/-! Connections whose types fit, and those that have to agree with others.

The types of a connection are those that its two ends come to. As long as it is not `Contested`,
nothing else has a part in them: the source delivers what it produces together with what the one
node after it expects, or it produces a settled type, which stays as it is
(`Proper.matches_of_suited`). What makes this work is `Clean`: what has come of two types unifies
with either of them once more, unless there is a mismatch within it. -/

namespace Dataflow

open ValueType NodeDefinition

/-- Two connections meet: they start at one port, or they end at one array. -/
def Graph.Meet (g : Graph) (c d : Connection) : Prop :=
  c ≠ d ∧ (c.src.sameGroup d.src ∨
    c.dest.sameGroup d.dest ∧ (g.node? d.dest.node).any fun n => n.IsCore "Array")

instance (g : Graph) (c d : Connection) : Decidable (g.Meet c d) :=
  inferInstanceAs (Decidable (_ ∧ _))

namespace Engine

/-- The types fit at the ends of a connection. -/
def Matches (e : Engine) (c : Connection) : Prop :=
  (e.delivered c.src.node c.src.key).unifies (e.expected c.dest.node c.dest.key)

/-- A connection meets another one, and the two do not carry one settled type. -/
def Contested (e : Engine) (c : Connection) : Prop :=
  ∃ d ∈ e.graph.connectionList, e.graph.Meet d c ∧
    ¬(Settled (e.produced c.src.node c.src.key) ∧
      e.produced d.src.node d.src.key = e.produced c.src.node c.src.key)

variable {e : Engine} {id : NodeId} {key : String} {n : Node} {c d : Connection} {k : ConnectionId}
  {t : ValueType}

theorem Matches.delivered_ok (h : e.Matches d) :
    (e.delivered d.src.node d.src.key).isMismatch = false :=
  (not_mismatch_of_unify (unifies_iff.1 h)).1

theorem settled_of_meet (ha : ¬e.Contested d) (hc : c ∈ e.graph.connectionList)
    (hm : e.graph.Meet c d) : Settled (e.produced d.src.node d.src.key) ∧
      e.produced c.src.node c.src.key = e.produced d.src.node d.src.key :=
  not_not.1 fun hne => ha ⟨c, hc, hm, hne⟩

theorem eq_singleton_of_nodup {cs : List Connection} (hnd : cs.Nodup) (hd : d ∈ cs)
    (h : ∀ c ∈ cs, c = d) : cs = [d] :=
  List.perm_singleton.1 ((List.perm_ext_iff_of_nodup hnd (List.nodup_singleton d)).2 fun c =>
    ⟨fun hc => List.mem_singleton.2 (h c hc), fun hc => List.mem_singleton.1 hc ▸ hd⟩)

namespace Proper

variable (h : e.Proper)

include h

/-! ## Connections that match -/

theorem comesTo_delivered (hm : (e.delivered id key).isMismatch = false) :
    ComesTo (e.produced id key) (e.demanded id key) (e.delivered id key) := by
  rw [h.delivered_eq] at hm ⊢
  exact comesTo_of_unify hm

/-- Where the types fit, what is expected is clean: a mismatch within it would be within what is
delivered, too. -/
theorem clean_expected (hd : e.graph.connection? k = some d) (hm : e.Matches d) :
    Clean (e.expected d.dest.node d.dest.key) := by
  intro path hs
  have hc := h.comesTo_delivered hm.delivered_ok
  have hdemanded := hs.unifyAll (List.mem_map_of_mem (f := fun c : Connection =>
    e.expected c.dest.node c.dest.key) (h.wellFormed.mem_from hd)) hc.not_mismatch.2
  have hclash := isMismatch_of_spoiltAt (hdemanded.right hc) hs
  rw [unifies_iff.1 hm] at hclash
  cases hclash

/-- If the types fit along all connections from a key, what is delivered there is clean as far as
what is produced is. -/
theorem clean_delivered (hp : Clean (e.produced id key))
    (hm : ∀ d ∈ e.graph.connectionsFrom id key, e.Matches d) : Clean (e.delivered id key) := by
  have hok : (e.delivered id key).isMismatch = false := by
    cases hfrom : e.graph.connectionsFrom id key with
    | nil =>
      rw [h.delivered_eq, demanded, hfrom]
      exact (unify_unresolved_right (h.regular_produced id key)).symm ▸ hp.isMismatch
    | cons d ds =>
      have hd : d ∈ e.graph.connectionsFrom id key := hfrom ▸ List.mem_cons_self
      obtain ⟨-, rfl, rfl⟩ := h.wellFormed.mem_connectionsFrom.1 hd
      exact (hm d hd).delivered_ok
  have hc := h.comesTo_delivered hok
  refine hp.comesTo (clean_unifyAll (List.forall_mem_map.2 fun d hd => ?_) hc.not_mismatch.2) hc
  exact h.clean_expected (h.wellFormed.mem_connectionsFrom.1 hd).1 (hm d hd)

/-- What goes into an array comes to something if the types fit along one connection into it. -/
theorem gathered_ok_of_matches (hn : e.graph.node? id = some n) (hd : MakesArray (e.definition n))
    (hc : c ∈ e.graph.connectionsInto id "input") (hm : e.Matches c) :
    (e.gathered id).isMismatch = false := by
  obtain ⟨hk, rfl, hkey⟩ := h.wellFormed.mem_connectionsInto.1 hc
  have hclean := h.clean_expected hk hm
  rw [hkey] at hclean
  have hok : (e.delivered c.dest.node "output").isMismatch = false := by
    by_contra hok
    -- the mismatch would be expected at the input as it is
    rw [h.expected_makesArray hn hd, itemsOf, if_pos (by simp [hok])] at hclean
    exact hok hclean.isMismatch
  have hj := h.joins_delivered hok
  rw [h.produced_makesArray hn hd, h.delivered_makesArray hn hd hok] at hj
  exact items_not_mismatch hj hclean.isMismatch

theorem isCore_of_array (hn : e.graph.node? id = some n) (hdef : e.definition n = .array) :
    n.IsCore "Array" := by
  have hdef' : Catalogue.builtin.definition n.module n.type = .array := h.catalogue ▸ hdef
  rcases Catalogue.builtin_takesOne n.module n.type with h1 | ⟨hmodule, htype | htype⟩
  · exact absurd (hdef' ▸ h1) (by decide)
  · exact ⟨hmodule, htype⟩
  · -- an object is no array, as the types that they produce tell
    have hobject : e.definition n = .object := by
      rw [definition, Catalogue.definitionOf, h.catalogue, hmodule, htype]
      rfl
    obtain ⟨fields, hf⟩ := h.produced_object hn hobject "output"
    have harray := h.produced_makesArray hn (hdef ▸ .array) "output"
    exact absurd (congrArg ValueType.name (harray.symm.trans hf)) (by simp)

/-! ## Settled types -/

theorem delivered_of_settled (hs : Settled (e.produced id key))
    (hm : (e.delivered id key).isMismatch = false) : e.delivered id key = e.produced id key :=
  (h.joins_delivered hm).eq_of_settled hs

/-- What is settled is delivered as it is to nodes that expect what unifies with it. -/
theorem delivered_of_unify (hs : Settled (e.produced id key))
    (hx : ∀ d ∈ e.graph.connectionsFrom id key, (ValueType.unify (e.produced id key)
      (e.expected d.dest.node d.dest.key)).isMismatch = false) :
    e.delivered id key = e.produced id key := by
  rw [h.delivered_eq]
  exact hs.unify_unifyAll h.regular_consumers (List.forall_mem_map.2 hx)

/-! ## Connections that are not contested -/

section Alone

variable (hd : e.graph.connection? k = some d) (ha : ¬e.Contested d)

include hd ha

theorem connectionsFrom_of_not_settled (hs : ¬Settled (e.produced d.src.node d.src.key)) :
    e.graph.connectionsFrom d.src.node d.src.key = [d] := by
  refine eq_singleton_of_nodup (h.wellFormed.nodup_connectionsFrom ..) (h.wellFormed.mem_from hd)
    fun c hc => by_contra fun hne => hs ?_
  obtain ⟨hc, hnode, hkey⟩ := h.wellFormed.mem_connectionsFrom.1 hc
  have hrole := (h.fitted.source hc).1.trans (h.fitted.source hd).1.symm
  exact (settled_of_meet ha (h.wellFormed.mem_list hc)
    ⟨hne, .inl (PortRef.sameGroup_iff.2 ⟨hnode, hkey, hrole⟩)⟩).1

/-- What comes in at an array, too, is what is produced at the source. -/
theorem gathered_of_not_contested (hn : e.graph.node? d.dest.node = some n)
    (hkey : d.dest.key = "input") (hkind : e.definition n = .array ∨ TakesOne (e.definition n)) :
    e.gathered d.dest.node = e.produced d.src.node d.src.key := by
  have hinto : d ∈ e.graph.connectionsInto d.dest.node "input" := hkey ▸ h.wellFormed.mem_into hd
  refine hkind.elim (fun harray => ?_) fun h1 => h.gathered_of_single hn h1 hinto
  have agree (c : Connection) (hc : c ∈ e.graph.connectionsInto d.dest.node "input") (hne : c ≠ d) :
      Settled (e.produced d.src.node d.src.key) ∧
        e.produced c.src.node c.src.key = e.produced d.src.node d.src.key := by
    obtain ⟨hc, hnode, hckey⟩ := h.wellFormed.mem_connectionsInto.1 hc
    obtain ⟨-, -, -, hcr⟩ := h.takes hc
    obtain ⟨-, -, -, hdr⟩ := h.takes hd
    refine settled_of_meet ha (h.wellFormed.mem_list hc) ⟨hne, .inr ⟨PortRef.sameGroup_iff.2
      ⟨hnode, hckey.trans hkey.symm, hcr.trans hdr.symm⟩, ?_⟩⟩
    simp [hn, h.isCore_of_array hn harray]
  by_cases hs : Settled (e.produced d.src.node d.src.key)
  · refine hs.unifyAll_eq (fun hnil => ?_) (List.forall_mem_map.2 fun c hc => ?_)
    · rw [List.map_eq_nil_iff.1 hnil] at hinto
      cases hinto
    · by_cases hcd : c = d
      · rw [hcd]
      · exact (agree c hc hcd).2
  · rw [gathered, incoming, eq_singleton_of_nodup (h.wellFormed.nodup_connectionsInto ..) hinto
      fun c hc => by_contra fun hne => hs (agree c hc hne).1]
    exact unify_unresolved_left _

end Alone

/-- Along the connections from a key the types fit if they do along those that are contested, and
along the others what is produced and what is expected come to something. -/
theorem matches_of_suited (hm : ∀ d ∈ e.graph.connectionsFrom id key, e.Contested d → e.Matches d)
    (hx : ∀ d ∈ e.graph.connectionsFrom id key, ¬e.Contested d →
      Clean (e.expected d.dest.node d.dest.key) ∧ (ValueType.unify (e.produced id key)
        (e.expected d.dest.node d.dest.key)).isMismatch = false) :
    ∀ d ∈ e.graph.connectionsFrom id key, e.Matches d := by
  intro d hd
  by_cases ha : e.Contested d
  · exact hm d hd ha
  obtain ⟨hclean, hok⟩ := hx d hd ha
  obtain ⟨hk, rfl, rfl⟩ := h.wellFormed.mem_connectionsFrom.1 hd
  rw [Matches, unifies_iff]
  by_cases hs : Settled (e.produced d.src.node d.src.key)
  · have hdelivered : e.delivered d.src.node d.src.key = e.produced d.src.node d.src.key := by
      by_cases hsome : ∃ c ∈ e.graph.connectionsFrom d.src.node d.src.key, e.Contested c
      · obtain ⟨c, hc, hcontested⟩ := hsome
        have hmatch := hm c hc hcontested
        obtain ⟨-, hnode, hkey⟩ := h.wellFormed.mem_connectionsFrom.1 hc
        exact h.delivered_of_settled hs (hnode ▸ hkey ▸ hmatch.delivered_ok)
      · exact h.delivered_of_unify hs fun c hc => (hx c hc fun hcontested =>
          hsome ⟨c, hc, hcontested⟩).2
    rw [hdelivered]
    exact hok
  · have hdemanded : e.demanded d.src.node d.src.key = e.expected d.dest.node d.dest.key := by
      rw [demanded, h.connectionsFrom_of_not_settled hk ha hs]
      exact unify_unresolved_left _
    rw [h.delivered_eq, hdemanded]
    exact (comesTo_of_unify hok).unifies_right hclean

end Proper

end Engine

end Dataflow
