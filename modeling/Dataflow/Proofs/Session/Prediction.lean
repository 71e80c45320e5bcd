import Dataflow.Proofs.Engine.Prediction
import Dataflow.Proofs.Session.Built
import Dataflow.Proofs.Session.Schema

/-! In sessions over the kinds of nodes that there are from the outset, changed by batches alone,
the type that a node delivers predicts its value (`Engine.Predicts`). -/

namespace Dataflow.Session

open ValueType

variable {s : Session} {id : NodeId} {t : ValueType}

/-- The value that is found afresh is as the type predicts that the node produces: nothing but
values as predicted is filed, by the contract `Engine.prediction`. -/
theorem valueAt_foretold (h : s.Edited (· = .builtin)) {n : Node} (hn : s.graph.node? id = some n)
    (key : String) : ∃ v, (valueAt id key s.forget).1 = .ok v ∧ s.engine.Predicts id key v := by
  have hkeeps := Engine.keeps_prediction h.proper h.keepsParams_builtin
  refine ⟨_, ?_, hkeeps.ask (q := .value id (.root .root) key) ⟨.nil, .root _ _⟩
    (fun _ => .nothing _) (t := s.forget.table) (.of_empty rfl)⟩
  have hn : s.forget.graph.requireNode id = .ok n := Graph.requireNode_ok.2 hn
  rw [valueAt, performAt_fst, hn]
  rfl

/-- If no mismatch is in the type that a node delivers, then its value conforms to it (`Conforms`).
Arrays are not nested deeper in the value than in the type, and just as deep where there are
elements.

The value is as predicted by the type that is produced (`valueAt_foretold`), and this joins to the
one that is delivered, which leaves what conforms (`Conforms.joins`). -/
theorem value_conforms (h : s.Edited (· = .builtin)) (ht : (deliveredType id "output" s).1 = .ok t)
    (hm : ¬t.HasMismatch) : ∃ v, (valueAt id "output" s.forget).1 = .ok v ∧ Conforms v t ∧
      v.arrayDepth ≤ t.arrayDepth ∧
      (v.front ≠ .nothing → v.front ≠ .array [] → v.arrayDepth = t.arrayDepth) := by
  rw [deliveredType_fst h.reached h.proper.typed] at ht
  obtain ⟨n, hn, rfl⟩ : ∃ n, s.graph.node? id = some n ∧ s.engine.delivered id "output" = t := by
    cases hn : s.graph.requireNode id with
    | error failure => rw [hn] at ht; cases ht
    | ok n =>
      rw [hn] at ht
      exact ⟨n, Graph.requireNode_ok.1 hn, Except.ok.inj ht⟩
  have hwhole := (h.proper.regular_delivered id "output").whole hm
  have hjoins := h.proper.joins_delivered hwhole.isMismatch
  obtain ⟨v, hv, hpredicts⟩ := valueAt_foretold h hn "output"
  have hconforms := (hpredicts (hjoins.whole hwhole)).joins hjoins
  exact ⟨v, hv, hconforms, hconforms.arrayDepth⟩

/-! ## Arrays of arrays -/

/-- Each text of an array is wrapped in an array of its own, and these are collected. -/
def wrappingSteps : List Step :=
  [.change (.addNode "Core" "String" ∅) false, .change (.addNode "Core" "Array" ∅) false,
    .change (.addNode "Core" "Iterate" ∅) false, .change (.addNode "Core" "Array" ∅) false,
    .change (.addNode "Core" "Collect" ∅) false,
    .change (.connect ⟨⟨0⟩, "output", .output, 0⟩ ⟨⟨1⟩, "input", .input, 0⟩) false,
    .change (.connect ⟨⟨1⟩, "output", .output, 0⟩ ⟨⟨2⟩, "input", .input, 0⟩) false,
    .change (.connect ⟨⟨2⟩, "output", .output, 0⟩ ⟨⟨3⟩, "input", .input, 0⟩) false,
    .change (.connect ⟨⟨3⟩, "output", .output, 0⟩ ⟨⟨4⟩, "input", .input, 0⟩) false]

def wrapping : Session := built wrappingSteps

/-- Whether the collector is there, the type that it delivers, and how deep its value is nested. -/
def collectorFound (g : Graph) : Bool × Option ValueType × Option Nat :=
  let e := builtEngine g
  ((g.requireNode ⟨4⟩).toOption.isSome,
    (e.answer 16 [] (.deliveredType ⟨4⟩ "output" .root) (.empty false)).map Prod.fst,
    (e.answer 16 [] (.value ⟨4⟩ (.root .root) "output")
      (.empty Config.default.tracksStatistics)).map fun r => r.1.arrayDepth)

theorem collectorFound_wrapping :
    collectorFound wrapping.graph = (true, some (.array (.array .string)), some 2) := by
  refine built_of_within (d := 16) collectorFound wrappingSteps ?_
  decide +kernel

theorem wrapping_deliveredType :
    (deliveredType ⟨4⟩ "output" wrapping).1 = .ok (.array (.array .string)) := by
  obtain ⟨hn, hd⟩ := Prod.mk.inj collectorFound_wrapping
  exact deliveredType_of_within (built_edited _) (built_engine _) hn (Prod.mk.inj hd).1

theorem wrapping_arrayDepth {v : Value}
    (hv : (valueAt ⟨4⟩ "output" wrapping.forget).1 = .ok v) : v.arrayDepth = 2 := by
  obtain ⟨-, hd⟩ := Prod.mk.inj collectorFound_wrapping
  exact valueAt_of_within (f := Value.arrayDepth) (built_engine _)
    ((built_config _).symm ▸ (Prod.mk.inj hd).2) hv

/-- The value is nested as deep as the type. -/
theorem wrapping_conforms : ∃ v, (valueAt ⟨4⟩ "output" wrapping.forget).1 = .ok v ∧
    Conforms v (.array (.array .string)) ∧ v.arrayDepth = 2 := by
  obtain ⟨v, hv, hc, -⟩ := value_conforms (built_edited _) wrapping_deliveredType
    fun h => not_hasMismatch_string (hasMismatch_array.1 (hasMismatch_array.1 h))
  exact ⟨v, hv, hc, wrapping_arrayDepth hv⟩

end Dataflow.Session
