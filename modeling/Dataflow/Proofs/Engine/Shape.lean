import Dataflow.Proofs.Engine.Recall

/-! What every value of a node is like, whatever it is made from.

If the plan for the value of a node ends in a certain way whatever it is told (`Upholds`), then so
does every answer, also if the value is taken from a table that holds no other ones
(`keeps_shaped`). It takes that nothing is cut short by a cycle. -/

namespace Dataflow

open Memo (Table Key)

variable {α : Type} {C D : Contract} {working : List Key} {Q Q' : α → Prop}

/-- A method that keeps to a contract keeps to one in which more is said of the answers to what it
asks, if the same may be filed under its own key. -/
theorem Method.Obeys.narrow {m : Method α} (h : m.Obeys C working Q)
    (ha : ∀ {ks q}, C.asks ks q → D.asks ks q) (hg : ∀ q a, D.good q a → C.good q a)
    (hf : ∀ k, m.key? = some k → ∀ a, D.filed k a ↔ C.filed k a) (hQ : ∀ a, Q a → Q' a) :
    m.Obeys D working Q' := by
  cases m with
  | known a reads => exact hQ a h
  | plan p => exact ((Plan.Ends.weaken h fun _ => ha).narrow hg).mono hQ
  | framed p =>
    exact ((Plan.Ends.weaken h fun _ => ha).narrow hg).mono fun b hb reads => hQ _ (hb reads)
  | remembered early slot p view =>
    have hf := hf slot.key rfl
    refine ⟨fun ha hb => hQ _ (h.hit ((hf _).1 ha) hb), fun hk => hQ _ (h.cycle hk), fun hk => ?_⟩
    refine (((h.work hk).weaken fun _ => ha).narrow hg).mono fun b hb => ?_
    exact ⟨hQ _ hb.1, (hf _).2 hb.2⟩

/-- Only values are filed under the topic of values. -/
theorem Query.eq_value_of_key? {q : Query} {k : Key} (hk : q.key? = some k)
    (ht : k.topic = .value) : ∃ id S key, q = .value id S key := by
  cases q with
  | value id S key => exact ⟨id, S, key, rfl⟩
  | _ => cases hk <;> cases ht

namespace Engine

variable {e : Engine} {V : NodeId → Value → Prop}

/-- If a value is asked for, the answer is as `V` says of the node. -/
def OfValue (V : NodeId → Value → Prop) : (q : Query) → q.Answer → Prop
  | .value id _ _, v => V id v
  | _, _ => True

/-- Only what may come up for all keys in progress is asked, and all values are as `V` says. -/
def shaped (e : Engine) (V : NodeId → Value → Prop) : Contract where
  asks := e.onward.asks
  good q a := e.Locates q a ∧ OfValue V q a
  filed k a := e.FilesConnections k a ∧ (k.topic = .value → ∀ v, a.value? = some v → V k.node v)

/-- Whatever its plan is told about anything but the graph, the value of a node is as `V` says. -/
def Upholds (e : Engine) (V : NodeId → Value → Prop) : Prop :=
  ∀ id S key, (e.valuePlan id S key).Ends (fun _ => True) e.Locates (V id)

variable (hg : e.graph.WellFormed) (ha : e.graph.Acyclic)
  (hl : e.catalogue.All NodeDefinition.Layered) (hf : e.catalogue.All NodeDefinition.Flowing)

theorem shaped_once (ha : e.graph.Acyclic) : e.Once (e.shaped V) := onward_once ha

include hg ha hl hf

theorem keeps_shaped (hV : e.Upholds V) : e.Keeps (e.shaped V) := by
  intro working q hq
  have hkeeps := keeps_onward hg hl hf working q hq
  by_cases hvalue : ∃ id S key, q = .value id S key
  · obtain ⟨id, S, key, rfl⟩ := hvalue
    have hkeeps : Slot.Obeys e.onward working _ (e.valuePlan id S key) _ := hkeeps
    refine ⟨fun hfiled hv => ⟨trivial, hfiled.2 rfl _ hv⟩,
      fun hk => absurd hk (onward_once ha hq rfl), fun hk => ?_⟩
    have hwork := (hkeeps.work hk).and (hV id S key)
    refine (hwork.narrow fun _ _ h => h.1).mono fun v hv => ⟨⟨trivial, hv.2⟩, hv.1.2, ?_⟩
    rintro - _ ⟨⟩
    exact hv.2
  · refine hkeeps.narrow (fun h => h) (fun _ _ h => h.1) (fun k hk a => ?_) fun a h => ⟨h, ?_⟩
    · exact and_iff_left fun ht => absurd (Query.eq_value_of_key? (e.method_key? hk) ht) hvalue
    · cases q with
      | value id S key => exact absurd ⟨id, S, key, rfl⟩ hvalue
      | _ => trivial

end Engine

end Dataflow
