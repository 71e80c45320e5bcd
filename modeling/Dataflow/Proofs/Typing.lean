import Dataflow.Proofs.Graph.Order
import Dataflow.Proofs.Query.Eval
import Dataflow.Typing

/-! What a check without findings says about the types in a graph: every node `Passes`. -/

namespace Dataflow

variable {answer : (q : Query) → q.Answer} {c : Catalogue} {n : Node} {t : Typing}

/-- The connection runs from a declared output to a declared input or property. -/
structure Graph.Declares (g : Graph) (c : Connection) : Prop where
  isSource : c.src.role.isSource = true
  src : ∃ s, g.resolve c.src = .ok s
  isTarget : c.dest.role.isSource = false
  dest : ∃ t, g.resolve c.dest = .ok t

namespace Typing

/-- No node so far delivers a mismatch. -/
def Clean (t : Typing) : Prop := ∀ id, t.isMismatch id = false

theorem clean_empty : empty.Clean := fun id => by simp [isMismatch, empty]

theorem isMismatch_add (t : Typing) (n : Node) (findings : List Finding) (type : ValueType)
    (id : NodeId) : (t.add n findings type).isMismatch id =
      if id = n.id then type.isMismatch else t.isMismatch id := by
  simp only [isMismatch, Typing.add, Tables.getElem?_insert]
  by_cases h : id = n.id
  · rw [if_pos h, if_pos h]
  · rw [if_neg h, if_neg h]

theorem Clean.add (h : t.Clean) {type : ValueType} (hm : type.isMismatch = false) (n : Node)
    (findings : List Finding) : (t.add n findings type).Clean := by
  intro id
  rw [isMismatch_add]
  split
  · exact hm
  · exact h id

theorem primary_not_mismatch {types : List (String × ValueType)}
    (h : ∀ kt ∈ types, kt.2.isMismatch = false) : (primary types).isMismatch = false := by
  unfold primary
  split
  next t hlast =>
    have := List.mem_of_getLast? hlast
    exact h _ (List.mem_filter.1 this).1
  next t _ hhead => exact h _ (List.mem_of_head? hhead)
  next => rfl

/-- Nothing is wrong at a node: it delivers no mismatch, and what comes in fits. -/
structure Passes (answer : (q : Query) → q.Answer) (n : Node) : Prop where
  delivered : ∀ s ∈ n.sources, (answer (.deliveredType n.id s.key .root)).isMismatch = false
  wires : ∀ s ∈ n.destinations, (wireFindings n s).eval answer = []

theorem diagnostics_add {findings : List Finding} {type : ValueType}
    (h : (t.add n findings type).diagnostics = []) : t.diagnostics = [] ∧ findings = [] := by
  obtain ⟨ht, hf⟩ := List.append_eq_nil_iff.1 h
  exact ⟨ht, List.map_eq_nil_iff.1 hf⟩

/-- Where no mismatch comes in, a type that comes in at a destination of a node that passes fits. -/
theorem Passes.unifies (h : Passes answer n) {s : PortSpec} (hs : s ∈ n.destinations)
    {conn : Connection} (hconn : conn ∈ answer (.connectionsInto n.id s.key))
    (hrole : conn.dest.role = s.role)
    (hm : (answer (.deliveredType conn.src.node conn.src.key .root)).isMismatch = false) :
    (answer (.deliveredType conn.src.node conn.src.key .root)).unifies
      (answer (.expectedType n.id s.key .root)) := by
  have hnone := h.wires s hs
  simp only [wireFindings, Plan.eval_bind, Plan.eval_mapM, Plan.eval_pure,
    List.filterMap_eq_nil_iff, List.mem_map, List.mem_filter] at hnone
  have hnone := hnone _ ⟨conn, ⟨hconn, by simpa using hrole⟩, rfl⟩
  simp only [Plan.eval_deliveredType, Plan.eval_expectedType, hm, id_eq, ite_eq_right_iff,
    reduceCtorEq, imp_false] at hnone
  simpa using hnone

/-- A check adds what it finds at a node. Where no supplier delivers a mismatch, a node at which
nothing is found passes. -/
theorem checkNode_adds (c : Catalogue) (t : Typing) (n : Node) : ∃ findings type,
    (checkNode c t n).eval answer = t.add n findings type ∧
      (t.Clean → findings = [] → Passes answer n ∧ type.isMismatch = false) := by
  unfold checkNode
  split
  next => exact ⟨_, _, rfl, fun _ h => nomatch h⟩
  next =>
    simp only [Plan.eval_bind, Plan.eval_pure, Plan.eval_mapM, delivered, Plan.eval_deliveredType]
    refine ⟨_, _, rfl, fun ht hnone => ?_⟩
    obtain ⟨houtputs, hwires⟩ := List.append_eq_nil_iff.1 hnone
    have hinherited {ids : List NodeId} : ids.any t.isMismatch = false :=
      List.any_eq_false.2 fun id _ => by simp [ht id]
    rw [hinherited, List.map_eq_nil_iff, List.filter_eq_nil_iff] at houtputs
    simp only [List.mem_map, Bool.not_false, Bool.and_true, Bool.not_eq_true] at houtputs
    refine ⟨⟨fun s hs => ?_, fun s hs => ?_⟩, primary_not_mismatch fun kt hkt => ?_⟩
    · exact houtputs _ ⟨s, hs, rfl⟩
    · exact List.flatten_eq_nil_iff.1 hwires _ (List.mem_map_of_mem hs)
    · exact houtputs kt (List.mem_map.1 hkt)

/-- The nodes are checked one after the other; those that do not exist are left out. -/
theorem checkAll_cases (c : Catalogue) (t : Typing) (id : NodeId) (ids : List NodeId) :
    answer (.node id) = none ∧
        (checkAll c t (id :: ids)).eval answer = (checkAll c t ids).eval answer ∨
      ∃ n, answer (.node id) = some n ∧ (checkAll c t (id :: ids)).eval answer =
        (checkAll c ((checkNode c t n).eval answer) ids).eval answer := by
  rw [checkAll, Plan.eval_bind]
  split
  next n hn => exact .inr ⟨n, hn, Plan.eval_bind _ _⟩
  next hn => exact .inl ⟨hn, rfl⟩

variable {ids : List NodeId}

theorem diagnostics_checkAll (h : ((checkAll c t ids).eval answer).diagnostics = []) :
    t.diagnostics = [] := by
  induction ids generalizing t with
  | nil => exact h
  | cons id ids ih =>
    rcases checkAll_cases c t id ids with ⟨-, heq⟩ | ⟨n, -, heq⟩
    · exact ih (heq ▸ h)
    · obtain ⟨findings, type, hadd, -⟩ := checkNode_adds c t n
      exact (diagnostics_add (hadd ▸ ih (heq ▸ h))).1

/-- Without any finding every node passes that was checked: no mismatch comes in from those before
it, as each of them delivered none (`Clean`). -/
theorem passes_of_checkAll (ht : t.Clean)
    (h : ((checkAll c t ids).eval answer).diagnostics = []) {id : NodeId} (hid : id ∈ ids)
    (hn : answer (.node id) = some n) : Passes answer n := by
  induction ids generalizing t with
  | nil => cases hid
  | cons first ids ih =>
    rcases checkAll_cases c t first ids with ⟨hnone, heq⟩ | ⟨m, hm, heq⟩
    · rw [heq] at h
      rcases List.mem_cons.1 hid with rfl | hid
      · cases hn.symm.trans hnone
      · exact ih ht h hid
    · rw [heq] at h
      obtain ⟨findings, type, hadd, hpass⟩ := checkNode_adds c t m
      rw [hadd] at h
      obtain ⟨hm', htype⟩ := hpass ht (diagnostics_add (diagnostics_checkAll h)).2
      rcases List.mem_cons.1 hid with rfl | hid
      · cases hn.symm.trans hm
        exact hm'
      · exact ih (ht.add htype m findings) h hid

end Typing
end Dataflow
