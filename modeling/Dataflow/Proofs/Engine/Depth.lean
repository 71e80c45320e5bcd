import Mathlib.Tactic.Linarith
import Dataflow.Proofs.Engine.Descent
import Dataflow.Wiring

/-! Every question comes to an end, in any graph and with anything remembered, within a depth that
the size of the graph allows.

What comes up for a question is of a lower `Engine.rank` (`method_descends`), and all ranks lie
below `Engine.depth` (`rank_lt_depth`). -/

namespace Dataflow

open Memo (Table Key)

namespace Engine

variable {e : Engine} {working : List Key} {α : Type} {t : Table}

theorem le_foldl_ports (ns : List Node) (k : Nat) :
    k ≤ ns.foldl (fun k n => k + n.ports.length) k := by
  induction ns generalizing k with
  | nil => exact Nat.le_refl k
  | cons n ns ih => exact Nat.le_trans (Nat.le_add_right ..) (ih _)

theorem rank_le (e : Engine) (working : List Key) (q : Query) : e.rank working q ≤
    2 * (e.graph.nodeList.length * e.graph.connectionList.length) +
      3 * e.graph.nodeList.length + 3 * e.graph.connectionList.length + 5 := by
  have scope (S : Scope) : e.scopeRank S ≤
      2 * (e.graph.nodeList.length * e.graph.connectionList.length) +
        3 * e.graph.nodeList.length + e.graph.connectionList.length + 4 := by
    have := Nat.mul_le_mul_right (2 * e.graph.connectionList.length + 1)
      (e.graph.nodesLeft_le S.isBound)
    unfold scopeRank
    linarith
  cases q with
  | outputType id key C =>
    have := e.rank_outputType_le working id key C
    omega
  | deliveredType id key C =>
    have := e.graph.nodesLeft_le C.nodes.contains
    simp only [rank]
    omega
  | expectedType id key C =>
    have := e.rank_expectedType_lt working id key C (.root C)
    have := scope (.root C)
    omega
  | visit id S seen found =>
    have := e.rank_visit_lt working id seen found S
    have := scope S
    omega
  | value id S key =>
    have := e.graph.sourcesLeft_le (valueKey S id key :: working) (valueKey S)
    have := scope S
    simp only [rank]
    split <;> omega
  | elements n S =>
    have := e.graph.sourcesLeft_le working (valueKey S)
    have := scope S
    simp only [rank]
    omega
  | ports id =>
    simp only [rank]
    omega
  | _ => exact Nat.zero_le _

theorem rank_lt_depth (e : Engine) (working : List Key) (q : Query) :
    e.rank working q < depth e.graph := by
  have hr := e.rank_le working q
  have hkeys : 8 ≤ keyBound e.graph :=
    Nat.le_trans (le_foldl_ports e.graph.nodeList 8) (Nat.le_add_left ..)
  have hsquare : nodeBound e.graph * 8 ≤ nodeBound e.graph * keyBound e.graph :=
    Nat.mul_le_mul_left _ hkeys
  have hdepth : nodeBound e.graph * (nodeBound e.graph * 8) ≤ depth e.graph := by
    unfold depth
    nlinarith
  have hn : nodeBound e.graph =
      e.graph.nodeList.length + 2 * e.graph.connectionList.length + 3 := by
    rw [nodeBound, Graph.nodeList, Graph.connectionList, Tables.length_values, Tables.length_values]
  rw [hn] at hdepth
  nlinarith

/-- What may be asked at any time, as long as no connections are being looked up. -/
def survey (e : Engine) : Contract := ⟨fun working _ => Calm working, e.Tells, e.FilesConnections⟩

theorem method_descends (hg : e.graph.WellFormed) (hl : e.catalogue.All NodeDefinition.Layered)
    (hf : e.catalogue.All NodeDefinition.Flowing) (hw : Calm working) (q : Query) :
    (e.method q).Obeys (e.descent q (e.rank working q)) working (e.Tells q) := by
  cases q with
  | node id => rfl
  | bound id S =>
    simp only [method]
    split <;> trivial
  | connectionsInto id key => exact connectionsInto_obeys (fun _ => Iff.rfl) hw id key
  | connectionsFrom id key => exact connectionsFrom_obeys (fun _ => Iff.rfl) hw id key
  | ports id =>
    simp only [method]
    split
    · trivial
    · have hk : (Key.inScope .ports id [] "").topic ≠ .connections := by simp [Key.inScope]
      exact Slot.Obeys.of_within (filesConnections_of_ne hk) fun _ =>
        portsPlan_within fun key => ⟨hw.cons hk, .of_none rfl, Nat.zero_lt_one⟩
  | value id S key => exact value_descends hg hw hf id S key
  | outputType id key C => exact outputType_descends hg hw hl id key C
  | deliveredType id key C => exact deliveredType_descends hg hw id key C
  | expectedType id key C => exact expectedType_descends hw hl id key C
  | emptyValue type => trivial
  | visit id S seen found => exact visit_descends hg hw id S seen found
  | elements n S => exact elements_descends hg hw hf n S
  | limit => trivial

section Answers

variable (hg : e.graph.WellFormed) (hl : e.catalogue.All NodeDefinition.Layered)
  (hf : e.catalogue.All NodeDefinition.Flowing)

include hg hl hf

theorem descends : e.Descends e.survey e.rank :=
  fun _ q hw => (method_descends hg hl hf hw q).weaken fun h => ⟨h.1, h.2.2⟩

/-- What any plan leaves behind tells the connections of the graph. -/
theorem perform_files (p : Plan α) (ht : t.Holds e.FilesConnections) :
    (e.perform p t).2.Holds e.FilesConnections :=
  ((descends hg hl hf).perform (Q := fun _ => True) (Plan.Within.all (fun _ => .nil) p) ht).2

theorem run_depth (p : Plan α) (ht : t.Holds e.FilesConnections) :
    p.run (e.answer (depth e.graph) []) t = some (e.perform p t) := by
  have hm : e.survey.Meets True (fun _ => True) (p.run (e.answer (depth e.graph) []) t) :=
    Contract.run_meets (fun _ ht => (descends hg hl hf).answer .nil (e.rank_lt_depth [] _) ht)
      (Plan.Within.all (P := fun _ => True) (fun _ => trivial) p) ht
  obtain ⟨r, hr⟩ := Option.isSome_iff_exists.1 (hm.ends trivial)
  rw [hr, perform_eq hr]

end Answers

/-- A question with a key has its answer remembered under it, unless it is known without. -/
theorem method_of_key? {q : Query} {k : Key} (h : q.key? = some k) :
    (∃ a reads, e.method q = .known a reads) ∨ (e.method q).key? = some k := by
  cases q with
  | ports id =>
    simp only [method]
    split
    · exact .inl ⟨_, _, rfl⟩
    · exact .inr h
  | deliveredType id key C =>
    simp only [method]
    split
    · exact .inl ⟨_, _, rfl⟩
    · exact .inr h
  | connectionsInto | connectionsFrom | value | outputType => exact .inr h
  | _ => cases h

theorem work_in_progress {m : Method α} {k : Key} (hk : m.key? = some k) (hw : k ∈ working)
    (f : List Key → (q : Query) → Work q.Answer) (t : Table) : (m.work f working t).isSome := by
  cases m with
  | remembered early slot p view =>
    cases hk
    simp only [Method.work, Functor.map, StateT.map, remember, if_pos hw]
    split <;> rfl
  | _ => cases hk

/-- A question that is being worked out already is answered at once. -/
theorem answer_in_progress {q : Query} {k : Key} (hk : q.key? = some k) (hw : k ∈ working)
    (t : Table) : (e.answer 1 working q t).isSome := by
  rw [answer_succ]
  rcases method_of_key? (e := e) hk with ⟨a, reads, hm⟩ | hm
  · rw [hm]
    rfl
  · exact work_in_progress hm hw _ t

/-- Whatever was asked before, every question about a graph that is built from parts is answered
within `Engine.depth` of the graph, and so is the check of its connections: by `run_depth`, since
what comes up for a question is of a lower rank (`method_descends`). A question is never worked out
while it is being worked out (`answer_in_progress`); and one that comes up for another is asked in
the same scope or in one that binds an iterator which is not bound there, and in the same context or
with a node provisional which is not provisional there. This is what `Leads` says, and
`Method.Obeys` that it holds of all that a method asks. -/
theorem answers_end (nodes : List Node) (connections : List Connection) (limit : Nat)
    (counting : Bool) (earlier : Plan α) :
    let e : Engine := ⟨.ofParts nodes connections, .builtin, limit⟩
    let t := (e.perform earlier (.empty counting)).2
    (∀ q, e.answer (depth e.graph) [] q t = some (e.ask q t)) ∧
      e.graph.invalidConnections.run (e.answer (depth e.graph) []) t =
        some (e.perform e.graph.invalidConnections t) ∧
      (∀ q k working t, q.key? = some k → k ∈ working → (e.answer 1 working q t).isSome) ∧
      ∀ q working, Calm working →
        (e.method q).Obeys ⟨fun _ => e.Leads q, e.Tells, e.FilesConnections⟩ working
          (e.Tells q) := by
  intro e t
  have hg : e.graph.WellFormed := .ofParts ..
  have hl : e.catalogue.All NodeDefinition.Layered := Catalogue.builtin_layered
  have hf : e.catalogue.All NodeDefinition.Flowing := Catalogue.builtin_flowing
  have ht : t.Holds e.FilesConnections := perform_files hg hl hf earlier (.of_empty rfl)
  refine ⟨fun q => ?_, run_depth hg hl hf _ ht,
    fun q k working t hk hw => answer_in_progress hk hw t,
    fun q working hw => (method_descends hg hl hf hw q).weaken fun h => h.2.1⟩
  have hrun := run_depth hg hl hf (.query q) ht
  rwa [perform, Plan.run_query, Plan.run_query] at hrun

/-- An array that feeds itself. -/
def selfFed : Engine :=
  ⟨.ofParts [⟨⟨0⟩, "Core", "Array", ∅, NodeDefinition.array.ports⟩]
    [⟨⟨0⟩, ⟨⟨0⟩, "output", .output, 0⟩, ⟨⟨0⟩, "input", .input, 0⟩⟩], .builtin, 0⟩

theorem selfFed_answers_end : ∃ v t,
    selfFed.answer (depth selfFed.graph) [] (.value ⟨0⟩ (.root .root) "output") (.empty false) =
        some (v, t) ∧
      (selfFed.answer 1 [valueKey (.root .root) ⟨0⟩ "output"]
        (.value ⟨0⟩ (.root .root) "output") t).isSome := by
  obtain ⟨hall, -, again, -⟩ :=
    answers_end (α := Unit) [⟨⟨0⟩, "Core", "Array", ∅, NodeDefinition.array.ports⟩]
      [⟨⟨0⟩, ⟨⟨0⟩, "output", .output, 0⟩, ⟨⟨0⟩, "input", .input, 0⟩⟩] 0 false (pure ())
  exact ⟨_, _, hall _, again _ _ _ _ rfl (List.mem_singleton_self _)⟩

end Engine

end Dataflow
