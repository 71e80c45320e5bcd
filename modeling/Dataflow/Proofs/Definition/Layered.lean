import Dataflow.Proofs.Catalogue
import Dataflow.Proofs.Query.Ends

/-! What kinds of nodes ask for (`NodeDefinition.Layered`).

What a node gives out is found from what feeds it, and what it demands from what it delivers itself.
So types are looked for in two layers, one going up and one going down, and values going up. -/

namespace Dataflow

variable {P : Query → Prop} {right : (q : Query) → q.Answer → Prop}

/-- The questions about the types of what feeds a node are in `P`. -/
structure TypesInto (P : Query → Prop) (right : (q : Query) → q.Answer → Prop) (n : Node)
    (context : Context) : Prop where
  node : ∀ id, P (.node id)
  connectionsInto : ∀ key, P (.connectionsInto n.id key)
  outputType : ∀ {key cs c}, right (.connectionsInto n.id key) cs → c ∈ cs →
    P (.outputType c.src.node c.src.key context)

/-- The questions about the values that feed a node are in `P`, and those about what stands for a
missing one. -/
structure ValuesInto (P : Query → Prop) (right : (q : Query) → q.Answer → Prop) (n : Node)
    (scope : Scope) : Prop where
  connectionsInto : ∀ key, P (.connectionsInto n.id key)
  value : ∀ {key cs c}, right (.connectionsInto n.id key) cs → c ∈ cs →
    P (.value c.src.node scope c.src.key)
  expectedType : ∀ key, P (.expectedType n.id key scope.context)
  emptyValue : ∀ type, P (.emptyValue type)

/-! ## Plans for what feeds a node -/

namespace Plan

variable {n : Node} {context : Context} {scope : Scope}

theorem upstreamType_within (h : TypesInto P right n context) (key : String) :
    (upstreamType n.id key context).Within P right := by
  refine Ends.bind (.query (h.connectionsInto key)) fun cs hcs => ?_
  cases cs with
  | nil => exact Within.pure _
  | cons c _ => exact Within.query (h.outputType hcs List.mem_cons_self)

theorem inputValue_within (h : ValuesInto P right n scope) (key : String) :
    (inputValue n.id key scope).Within P right := by
  refine Ends.bind (.query (h.connectionsInto key)) fun cs hcs => ?_
  cases cs with
  | nil => exact Within.bind (.query (h.expectedType key)) fun type => .query (h.emptyValue type)
  | cons c _ => exact Within.query (h.value hcs List.mem_cons_self)

theorem inputValues_within (h : ValuesInto P right n scope) (key : String) :
    (inputValues n.id key scope).Within P right :=
  Ends.bind (.query (h.connectionsInto key)) fun _ hcs =>
    Within.mapM fun _ hc => .query (h.value hcs hc)

theorem suppliers_within (h : ∀ key, P (.connectionsInto n.id key)) :
    (suppliers n).Within P right :=
  .bind (.mapM fun s _ => .query (h s.key)) fun _ => .pure _

end Plan

/-! ## Types -/

namespace NodeDefinition

/-- The produced type is found from the types of what feeds the node (`TypesInto`), and the demanded
type from the type that it delivers. -/
structure Layered (d : NodeDefinition) : Prop where
  outputType : ∀ {P right n context}, TypesInto P right n context → ∀ key,
    (d.outputType n key context).Within P right
  inputType : ∀ {P right} {n : Node} {context}, P (.deliveredType n.id "output" context) → ∀ key,
    (d.inputType n key context).Within P right

variable {n : Node} {context : Context}

theorem demandAt_ends {type : Plan ValueType} {Q : ValueType → Prop} (h : type.Ends P right Q)
    (key asked : String) : (demandAt key type asked).Ends P right fun t =>
      asked = key → ∃ u, t = some u ∧ Q u := by
  unfold demandAt
  split
  · exact h.map fun u hu _ => ⟨u, rfl, hu⟩
  next hk => exact .pure fun h => absurd h hk

theorem demandAt_within {type : Plan ValueType} (h : type.Within P right) (key asked : String) :
    (demandAt key type asked).Within P right :=
  (demandAt_ends h key asked).mono fun _ _ => trivial

theorem deliveredItems_within (h : P (.deliveredType n.id "output" context)) :
    (deliveredItems n context).Within P right := by
  refine .bind (.query h) fun t => ?_
  split
  · exact .pure _
  · cases t.param? "items" <;> exact .pure _

theorem fieldAt?_within {c : Connection} (hn : P (.node c.src.node))
    (ht : P (.outputType c.src.node c.src.key context)) : (fieldAt? c context).Within P right := by
  refine .bind (.query hn) fun source => ?_
  cases source with
  | none => exact .pure _
  | some source =>
    dsimp only
    split
    · exact .pure _
    · exact .bind (.query ht) fun _ => .pure _

theorem literal_layered (kind : ParamKind) : (literal kind).Layered :=
  ⟨fun _ _ => .pure _, fun _ _ => .pure _⟩

theorem array_layered : array.Layered where
  outputType h _ := Plan.Ends.bind (.query (h.connectionsInto "input")) fun _ hcs =>
    Plan.Within.bind (.mapM fun _ hc => .query (h.outputType hcs hc)) fun _ => .pure _
  inputType h _ := demandAt_within (deliveredItems_within h) ..

theorem iterate_layered : iterate.Layered where
  outputType h key := by
    unfold iterate
    dsimp only
    split
    · exact .pure _
    · exact .bind (Plan.upstreamType_within h "input") fun _ => .pure _
  inputType h _ := demandAt_within (.map (.query h) _) ..

theorem collect_layered : collect.Layered where
  outputType h _ := (Plan.upstreamType_within h "input").map _
  inputType h _ := demandAt_within (deliveredItems_within h) ..

theorem object_layered : object.Layered where
  outputType h _ := Plan.Ends.bind (.query (h.connectionsInto "input")) fun _ hcs =>
    Plan.Within.bind (.mapM fun _ hc => fieldAt?_within (h.node _) (h.outputType hcs hc))
      fun _ => .pure _
  inputType _ _ := demandAt_within (.pure _) ..

theorem pair_layered : pair.Layered where
  outputType h _ := (Plan.upstreamType_within h "input").map _
  inputType _ _ := demandAt_within (.pure _) ..

theorem arithmetic_layered (op : Operation) : (arithmetic op).Layered :=
  ⟨fun _ _ => .pure _, fun _ _ => .pure _⟩

theorem notFound_layered : notFound.Layered :=
  ⟨fun _ _ => .pure _, fun _ _ => .pure _⟩

end NodeDefinition

open NodeDefinition in
theorem Catalogue.builtin_layered : builtin.All NodeDefinition.Layered :=
  all_builtin literal_layered array_layered iterate_layered collect_layered object_layered
    pair_layered arithmetic_layered notFound_layered

end Dataflow
