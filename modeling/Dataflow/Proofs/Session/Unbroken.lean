import Dataflow.Proofs.Engine.Unbroken
import Dataflow.Proofs.Session.Prediction

/-! The check of all types looks at each delivered type from the outside.

In sessions over the kinds of nodes that there are from the outset, changed by batches alone,
nothing is hidden within (`Engine.Unbroken`). -/

namespace Dataflow.Session

open ValueType

variable {s : Session} {id : NodeId}

theorem unbroken_of_typing (h : s.Reached) (hc : s.catalogue.Typed)
    (hnone : (typing s).1.diagnostics = []) : s.engine.Unbroken := by
  intro id n hn o ho
  have hdelivered := (passes_of_typing h hc hnone hn).delivered o ho
  exact h.wellFormed.node_id hn ▸ hdelivered

/-- If the check of all types finds nothing, then no declared output delivers a type with a mismatch
anywhere in it, whatever is asked before. For then no output delivers a mismatch as a whole
(`unbroken_of_typing`), and by `Engine.Proper.delivered_whole` none is within. -/
theorem no_hidden_mismatch (h : s.Edited (· = .builtin)) (hnone : (typing s).1.diagnostics = [])
    {n : Node} (hn : s.graph.node? id = some n) {o : PortSpec} (ho : o ∈ n.sources) :
    ∃ t, (∀ (α : Type) (earlier : Plan α),
      (deliveredType id o.key (perform earlier s).2).1 = .ok t) ∧ ¬t.HasMismatch := by
  have hc := h.proper.typed
  refine ⟨s.engine.delivered id o.key, fun α earlier => ?_, ?_⟩
  · rw [deliveredType_fst (h.reached.perform earlier) hc,
      show (perform earlier s).2.graph.requireNode id = .ok n from Graph.requireNode_ok.2 hn]
    rfl
  · exact h.proper.delivered_whole h.keepsParams_builtin
      (unbroken_of_typing h.reached hc hnone) hn ho

/-- A text goes into an array, and this into another one. -/
def stackSteps : List Step :=
  [.change (.addNode "Core" "String" ∅) false, .change (.addNode "Core" "Array" ∅) false,
    .change (.addNode "Core" "Array" ∅) false,
    .change (.connect ⟨⟨0⟩, "output", .output, 0⟩ ⟨⟨1⟩, "input", .input, 0⟩) false,
    .change (.connect ⟨⟨1⟩, "output", .output, 0⟩ ⟨⟨2⟩, "input", .input, 0⟩) false]

def stack : Session := built stackSteps

/-- The outputs of the outer array, and what is found in the whole graph. -/
def stackChecked (g : Graph) : Option (List PortSpec) × Option (List Diagnostic) :=
  ((g.node? ⟨2⟩).map Node.sources, diagnosticsWithin 12 g)

theorem stackChecked_stack : stackChecked stack.graph = (some [.output "output"], some []) := by
  refine built_of_within (d := 12) stackChecked stackSteps ?_
  decide +kernel

/-- No mismatch is anywhere in the outer array. -/
theorem stack_unbroken : (typing stack).1.diagnostics = [] ∧
    ∃ t, (deliveredType ⟨2⟩ "output" (typing stack).2).1 = .ok t ∧ ¬t.HasMismatch := by
  have hnone : (typing stack).1.diagnostics = [] :=
    diagnostics_of_within (built_edited _) (built_engine _) (congrArg Prod.snd stackChecked_stack)
  obtain ⟨n, hn, hsources⟩ := Option.map_eq_some_iff.1 (congrArg Prod.fst stackChecked_stack)
  obtain ⟨t, ht, hm⟩ := no_hidden_mismatch (built_edited _) hnone hn (o := .output "output")
    (hsources ▸ List.mem_singleton_self _)
  exact ⟨hnone, t, ht _ (Typing.check stack.catalogue stack.graph), hm⟩

end Dataflow.Session
