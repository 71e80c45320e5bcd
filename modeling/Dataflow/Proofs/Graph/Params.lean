import Dataflow.Graph.Basic
import Dataflow.Proofs.Catalogue

/-! The parameters of nodes: a node of a known kind has those that its kind declares, each with a
value of the kind that is declared for it (`Graph.KeepsParams`). -/

namespace Dataflow

/-- The parameters are those that are declared, each of the kind that is declared first for it. -/
def ParamsMatch (specs : List ParamSpec) (ps : Params) : Prop :=
  ∀ key : String, ps[key]?.map ParamValue.kind =
    (specs.find? (·.key = key)).map ParamSpec.kind

/-- Every default is of the kind that it stands for. -/
def NodeDefinition.DefaultsMatch (d : NodeDefinition) : Prop :=
  ∀ s ∈ d.params, s.default.kind = s.kind

theorem Catalogue.builtin_defaultsMatch : builtin.All NodeDefinition.DefaultsMatch := by
  have none (d : NodeDefinition) (h : d.params = []) : d.DefaultsMatch := by
    rw [NodeDefinition.DefaultsMatch, h]
    exact List.forall_mem_nil _
  have one (d : NodeDefinition) {key : String} {v : ParamValue}
      (h : d.params = [.ofDefault key v]) : d.DefaultsMatch := by
    rw [NodeDefinition.DefaultsMatch, h]
    exact List.forall_mem_singleton.2 rfl
  exact all_builtin (fun kind => one _ rfl) (none _ rfl) (none _ rfl) (none _ rfl) (none _ rfl)
    (one _ rfl) (fun op => none _ rfl) (none _ rfl)

/-- Every node of a known kind has the parameters of its kind. -/
def Graph.KeepsParams (g : Graph) (catalogue : Catalogue) : Prop :=
  ∀ id n, g.node? id = some n → catalogue.contains n.module n.type →
    ParamsMatch (catalogue.definitionOf n).params n.params

namespace Graph

variable {g : Graph} {catalogue : Catalogue}

theorem keepsParams_empty (catalogue : Catalogue) : Graph.empty.KeepsParams catalogue := by
  intro id n hn
  simp [Graph.empty, node?] at hn

/-- One more node, or another one in its place. -/
theorem KeepsParams.insert (h : g.KeepsParams catalogue) {n : Node}
    (hn : catalogue.contains n.module n.type →
      ParamsMatch (catalogue.definitionOf n).params n.params)
    {g' : Graph} (hg' : g'.nodes = g.nodes.insert n.id n) : g'.KeepsParams catalogue := by
  intro id m hm
  rw [node?, hg', Tables.getElem?_insert] at hm
  split at hm
  · cases hm
    exact hn
  · exact h id m hm

end Graph

end Dataflow
