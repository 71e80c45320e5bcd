import Dataflow.Proofs.Definition.Layered
import Dataflow.Proofs.Query.Alike

/-! How values flow through nodes (`NodeDefinition.Flowing`).

A collector apart, a node finds its value from the values that feed it, and an iterator from the
element that it is bound to. So where these are the same, the value is. -/

namespace Dataflow

structure NodeDefinition.Flowing (d : NodeDefinition) : Prop where
  apart : d.isIterator = true → d.isCollector = false
  value : ∀ {P right n scope}, d.isIterator = false → d.isCollector = false →
    ValuesInto P right n scope → ∀ key, (d.value n scope key).Within P right
  element : ∀ {P right} {n : Node} {scope}, d.isIterator = true → P (.bound n.id scope) → ∀ key,
    (d.value n scope key).Within P right
  alike : ∀ {f : (q : Query) → Reading q.Answer} {n S T}, d.isCollector = false →
    AlikeInto f n S T → (d.isIterator = true → f (.bound n.id S) = f (.bound n.id T)) → ∀ key,
    (d.value n S key).run f = (d.value n T key).run f
  collects : d.isCollector = true → ∀ n scope key, d.value n scope key = Plan.collect n.id scope
  elements : d.isIterator = true → ∀ n scope,
    d.elements n scope = Value.items <$> Plan.inputValue n.id "input" scope
  still : d.isIterator = false → ∀ n scope, d.elements n scope = pure []

namespace NodeDefinition

/-- What is neither an iterator nor a collector. -/
theorem plain_flowing {ports : List PortSpec} {params : List ParamSpec}
    {value : Node → Scope → (key : String) → Plan Value}
    {outputType : Node → (key : String) → Context → Plan ValueType}
    {inputType : Node → (key : String) → Context → Plan (Option ValueType)}
    (hvalue : ∀ {P right n scope}, ValuesInto P right n scope → ∀ key,
      (value n scope key).Within P right)
    (halike : ∀ {f : (q : Query) → Reading q.Answer} {n S T}, AlikeInto f n S T → ∀ key,
      (value n S key).run f = (value n T key).run f) :
    (plain ports params value outputType inputType).Flowing where
  apart h := by cases h
  value _ _ h := hvalue h
  element h := by cases h
  alike _ h _ := halike h
  collects h := by cases h
  elements h := by cases h
  still _ _ _ := rfl

theorem literal_flowing (kind : ParamKind) : (literal kind).Flowing := by
  refine plain_flowing (fun {P right n scope} h _ => ?_) fun _ _ => rfl
  cases n.params["value"]? with
  | none => exact .query (h.emptyValue _)
  | some p => exact .pure _

theorem array_flowing : array.Flowing :=
  plain_flowing (fun h _ => (Plan.inputValues_within h "input").map _)
    fun h _ => Plan.run_map_congr (Plan.inputValues_congr h "input") _

theorem iterate_flowing : iterate.Flowing where
  apart _ := rfl
  value h := by cases h
  element _ hb key := .bind (.query hb) fun l => by
    cases l <;> exact .pure _
  alike _ _ hb key := by
    refine Plan.run_bind_congr ?_ fun l _ _ => ?_
    · rw [Plan.run_query, Plan.run_query, hb rfl]
    · cases l <;> rfl
  collects h := by cases h
  elements _ _ _ := rfl
  still h := by cases h

theorem collect_flowing : collect.Flowing where
  apart h := by cases h
  value _ h := by cases h
  element h := by cases h
  alike h := by cases h
  collects _ _ _ _ := rfl
  elements h := by cases h
  still _ _ _ := rfl

theorem object_flowing : object.Flowing :=
  plain_flowing (fun h _ => .bind (Plan.inputValues_within h "input") fun _ => .pure _)
    fun h _ => Plan.run_bind_congr (Plan.inputValues_congr h "input") fun _ _ _ => rfl

theorem pair_flowing : pair.Flowing :=
  plain_flowing (fun h _ => (Plan.inputValue_within h "input").map _)
    fun h _ => Plan.run_map_congr (Plan.inputValue_congr h "input") _

theorem evaluate_within {op : Operation} {P : Query → Prop} {right : (q : Query) → q.Answer → Prop}
    {n : Node} {scope : Scope} (h : ValuesInto P right n scope) :
    (op.evaluate n scope).Within P right := by
  refine .bind (Plan.inputValue_within h "lhs") fun x => ?_
  split
  · exact .pure _
  refine .bind (Plan.inputValue_within h "rhs") fun y => ?_
  split
  · exact .pure _
  split <;> exact .pure _

theorem evaluate_alike {op : Operation} {f : (q : Query) → Reading q.Answer} {n : Node}
    {S T : Scope} (h : AlikeInto f n S T) : (op.evaluate n S).run f = (op.evaluate n T).run f := by
  refine Plan.run_bind_congr (Plan.inputValue_congr h "lhs") fun x _ _ => ?_
  split
  · rfl
  · exact Plan.run_bind_congr (Plan.inputValue_congr h "rhs") fun _ _ _ => rfl

theorem arithmetic_flowing (op : Operation) : (arithmetic op).Flowing :=
  plain_flowing (fun h _ => evaluate_within h) fun h _ => evaluate_alike h

theorem notFound_flowing : notFound.Flowing :=
  plain_flowing (fun _ _ => .pure _) fun _ _ => rfl

end NodeDefinition

open NodeDefinition in
theorem Catalogue.builtin_flowing : builtin.All NodeDefinition.Flowing :=
  all_builtin literal_flowing array_flowing iterate_flowing collect_flowing object_flowing
    pair_flowing arithmetic_flowing notFound_flowing

end Dataflow
