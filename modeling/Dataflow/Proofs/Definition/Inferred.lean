import Mathlib.Data.List.Basic
import Dataflow.Proofs.Catalogue
import Dataflow.Proofs.Query.Eval
import Dataflow.Proofs.ValueType.Unify

/-! What the types at a node rest on: those that feed it, and the one that it delivers
(`NodeDefinition.Inferred`). -/

namespace Dataflow

open ValueType

variable {answer answer' : (q : Query) → q.Answer} {n : Node} {context context' : Context}

/-- What feeds a node has the same types in both contexts. -/
structure SameInto (answer answer' : (q : Query) → q.Answer) (n : Node)
    (context context' : Context) : Prop where
  node : ∀ id, answer (.node id) = answer' (.node id)
  connectionsInto : ∀ key, answer (.connectionsInto n.id key) = answer' (.connectionsInto n.id key)
  outputType : ∀ {key c}, c ∈ answer (.connectionsInto n.id key) →
    answer (.outputType c.src.node c.src.key context) =
      answer' (.outputType c.src.node c.src.key context')

/-- The types that come in at a key. -/
def typesInto (answer : (q : Query) → q.Answer) (id : NodeId) (key : String) (context : Context) :
    List ValueType :=
  (answer (.connectionsInto id key)).map fun c => answer (.outputType c.src.node c.src.key context)

theorem SameInto.typesInto (h : SameInto answer answer' n context context') (key : String) :
    typesInto answer n.id key context = typesInto answer' n.id key context' := by
  rw [Dataflow.typesInto, Dataflow.typesInto, ← h.connectionsInto]
  exact List.map_congr_left fun c hc => h.outputType hc

theorem Plan.eval_upstreamType (id : NodeId) (key : String) :
    (upstreamType id key context).eval answer =
      (typesInto answer id key context).head?.getD .unresolved := by
  rw [upstreamType, eval_bind, eval_connectionsInto, typesInto]
  cases answer (.connectionsInto id key) <;> rfl

theorem Catalogue.deliver_builtin {produced consumers : ValueType}
    (h : Regular (unify produced consumers)) :
    deliver builtin.kinds produced consumers = unify produced consumers := by
  have known : ∀ name ∈ ["String", "Number", "Boolean", "Array", "Pair", "Object"],
      (builtin.kinds "Core" name).isNone = false := by decide +kernel
  have hkinds : ((unify produced consumers).isConcrete &&
      (builtin.kinds (unify produced consumers).module (unify produced consumers).name).isNone) =
        false := by
    generalize unify produced consumers = t at h
    cases h with
    | unresolved => rfl
    | mismatch _ => rfl
    | string => exact known "String" (by decide)
    | number => exact known "Number" (by decide)
    | boolean => exact known "Boolean" (by decide)
    | array _ => exact Bool.and_eq_false_imp.2 fun _ => known "Array" (by decide)
    | pair _ => exact Bool.and_eq_false_imp.2 fun _ => known "Pair" (by decide)
    | object _ => exact Bool.and_eq_false_imp.2 fun _ => known "Object" (by decide)
  rw [deliver, hkinds, if_neg (by simp)]

namespace NodeDefinition

/-! ## What is produced -/

theorem eval_array_outputType (key : String) :
    (array.outputType n key context).eval answer =
      .array (.unifyAll (typesInto answer n.id "input" context)) := by
  simp only [array, plain, Plan.eval_bind, Plan.eval_connectionsInto, Plan.eval_mapM,
    Plan.eval_outputType, Plan.eval_pure, typesInto]

theorem eval_iterate_outputType (key : String) :
    (iterate.outputType n key context).eval answer =
      if key = "index" then .number
      else elementType ((typesInto answer n.id "input" context).head?.getD .unresolved) := by
  simp only [iterate]
  split
  · rfl
  · simp only [Plan.eval_bind, Plan.eval_upstreamType, Plan.eval_pure]

theorem elementType_array (t : ValueType) : elementType (.array t) = t := rfl

/-- Only an array has elements. -/
theorem elementType_cases {t : ValueType} (h : Regular t) :
    t = unresolved ∨ t = .array (elementType t) ∨ ∃ r, elementType t = mismatch r := by
  cases h with
  | unresolved => exact .inl rfl
  | mismatch r => exact .inr (.inr ⟨r, rfl⟩)
  | array _ => exact .inr (.inl rfl)
  | object fields =>
    have hopen : ((ValueType.object fields).isUnresolved ||
        (ValueType.object fields).isMismatch) = false := rfl
    refine .inr (.inr ?_)
    rw [elementType, hopen, if_neg (by simp)]
    split
    · exact ⟨_, if_neg (by simp)⟩
    · exact ⟨_, rfl⟩
  | _ => exact .inr (.inr ⟨_, rfl⟩)

theorem regular_elementType {t : ValueType} (h : Regular t) : Regular (elementType t) := by
  rcases elementType_cases h with rfl | ht | ⟨r, hr⟩
  · exact .unresolved
  · exact regular_array (ht ▸ h)
  · exact hr ▸ .mismatch r

theorem eval_collect_outputType (key : String) :
    (collect.outputType n key context).eval answer =
      .array ((typesInto answer n.id "input" context).head?.getD .unresolved) := by
  simp only [collect, Plan.eval_map, Plan.eval_upstreamType]

theorem eval_pair_outputType (key : String) :
    (pair.outputType n key context).eval answer =
      .pair ((typesInto answer n.id "input" context).head?.getD .unresolved) := by
  simp only [pair, plain, Plan.eval_map, Plan.eval_upstreamType]

/-- The field that a connected node makes of the type it produces. -/
def fieldOf (source : Option Node) (t : ValueType) : Option (String × ValueType) :=
  source.bind fun source =>
    let key := Text.trim (source.textParam "key")
    if key = "" then none else some (key, fieldType t)

theorem eval_fieldAt? (c : Connection) :
    (fieldAt? c context).eval answer =
      fieldOf (answer (.node c.src.node)) (answer (.outputType c.src.node c.src.key context)) := by
  rw [fieldAt?, Plan.eval_bind, Plan.eval_node?]
  split
  next h => rw [h]; rfl
  next source h =>
    rw [h, fieldOf, Option.bind_some]
    dsimp only
    split <;> rfl

theorem eval_object_outputType (key : String) :
    (object.outputType n key context).eval answer =
      .object (Fields.ofList ((answer (.connectionsInto n.id "input")).filterMap fun c =>
        fieldOf (answer (.node c.src.node))
          (answer (.outputType c.src.node c.src.key context)))) := by
  simp only [object, plain, Plan.eval_bind, Plan.eval_connectionsInto, Plan.eval_mapM,
    Plan.eval_pure, eval_fieldAt?, List.filterMap_map]
  rfl

/-! ## What is demanded -/

theorem eval_demandAt (key asked : String) (type : Plan ValueType) :
    (demandAt key type asked).eval answer =
      if asked = key then some (type.eval answer) else none := by
  unfold demandAt
  split
  · exact Plan.eval_map ..
  · rfl

/-- What has to go into an array so that it becomes one of type `t`. -/
def itemsOf (n : Node) (t : ValueType) : ValueType :=
  if t.isUnresolved || t.isMismatch then t
  else (t.param? "items").getD (.mismatch (n.label ++ " does not deliver an Array"))

theorem itemsOf_array (n : Node) (t : ValueType) : itemsOf n (.array t) = t := rfl

theorem regular_itemsOf (n : Node) {a b : ValueType} (ha : Regular a) (hb : Regular b) :
    Regular (itemsOf n (.unify (.array a) b)) := by
  rcases joins_or_mismatch (.array ha) hb with hj | ⟨r, hr⟩
  · obtain ⟨u, hu⟩ := joins_array hj
    have hreg := hj.regular
    rw [hu] at hreg ⊢
    exact regular_array hreg
  · exact hr ▸ .mismatch r

theorem eval_deliveredItems :
    (deliveredItems n context).eval answer =
      itemsOf n (answer (.deliveredType n.id "output" context)) := by
  rw [deliveredItems, Plan.eval_bind, Plan.eval_deliveredType, itemsOf]
  split
  · rfl
  · split
    next items h => rw [h]; rfl
    next h => rw [h]; rfl

theorem eval_array_inputType (key : String) :
    (array.inputType n key context).eval answer =
      if key = "input" then some (itemsOf n (answer (.deliveredType n.id "output" context)))
      else none := by
  simp only [array, plain, eval_demandAt, eval_deliveredItems]

theorem eval_collect_inputType (key : String) :
    (collect.inputType n key context).eval answer =
      if key = "input" then some (itemsOf n (answer (.deliveredType n.id "output" context)))
      else none := by
  simp only [collect, eval_demandAt, eval_deliveredItems]

theorem eval_iterate_inputType (key : String) :
    (iterate.inputType n key context).eval answer =
      if key = "input" then some (.array (answer (.deliveredType n.id "output" context)))
      else none := by
  simp only [iterate, eval_demandAt, Plan.eval_map, Plan.eval_deliveredType]

theorem eval_object_inputType (key : String) :
    (object.inputType n key context).eval answer =
      if key = "input" then some (.pair .unresolved) else none := by
  simp only [object, plain, eval_demandAt, Plan.eval_pure]

theorem eval_pair_inputType (key : String) :
    (pair.inputType n key context).eval answer =
      if key = "input" then some .unresolved else none := by
  simp only [pair, plain, eval_demandAt, Plan.eval_pure]

/-! ## The same types -/

/-- The types at a node are the same where those are that they rest on: the produced type where
`SameInto` holds, and the demanded type where the same is delivered. -/
structure Inferred (d : NodeDefinition) : Prop where
  outputType : ∀ {answer answer' n context context'}, SameInto answer answer' n context context' →
    ∀ key, (d.outputType n key context).eval answer = (d.outputType n key context').eval answer'
  inputType : ∀ {answer answer'} {n : Node} {context context'},
    answer (.deliveredType n.id "output" context) =
      answer' (.deliveredType n.id "output" context') →
    ∀ key, (d.inputType n key context).eval answer = (d.inputType n key context').eval answer'

theorem literal_inferred (kind : ParamKind) : (literal kind).Inferred :=
  ⟨fun _ _ => rfl, fun _ _ => rfl⟩

theorem array_inferred : array.Inferred where
  outputType h _ := by rw [eval_array_outputType, eval_array_outputType, h.typesInto]
  inputType h _ := by rw [eval_array_inputType, eval_array_inputType, h]

theorem iterate_inferred : iterate.Inferred where
  outputType h _ := by rw [eval_iterate_outputType, eval_iterate_outputType, h.typesInto]
  inputType h _ := by rw [eval_iterate_inputType, eval_iterate_inputType, h]

theorem collect_inferred : collect.Inferred where
  outputType h _ := by rw [eval_collect_outputType, eval_collect_outputType, h.typesInto]
  inputType h _ := by rw [eval_collect_inputType, eval_collect_inputType, h]

theorem object_inferred : object.Inferred where
  outputType h _ := by
    rw [eval_object_outputType, eval_object_outputType, ← h.connectionsInto]
    refine congrArg (fun fields => ValueType.object (Fields.ofList fields)) ?_
    exact List.filterMap_congr fun c hc => by rw [h.node, h.outputType hc]
  inputType _ _ := by rw [eval_object_inputType, eval_object_inputType]

theorem pair_inferred : pair.Inferred where
  outputType h _ := by rw [eval_pair_outputType, eval_pair_outputType, h.typesInto]
  inputType _ _ := by rw [eval_pair_inputType, eval_pair_inputType]

theorem arithmetic_inferred (op : Operation) : (arithmetic op).Inferred :=
  ⟨fun _ _ => rfl, fun _ _ => rfl⟩

theorem notFound_inferred : notFound.Inferred :=
  ⟨fun _ _ => rfl, fun _ _ => rfl⟩

/-! ## Kinds and their ports -/

/-- The kinds of nodes of `Catalogue.builtin`. -/
inductive Builtin : NodeDefinition → Prop
  | literal (kind : ParamKind) : Builtin (literal kind)
  | array : Builtin array
  | iterate : Builtin iterate
  | collect : Builtin collect
  | object : Builtin object
  | pair : Builtin pair
  | arithmetic (op : Operation) : Builtin (arithmetic op)
  | notFound : Builtin notFound

/-- The keys at which a kind of node takes something in. -/
inductive Takes : NodeDefinition → String → Prop
  | array : Takes array "input"
  | iterate : Takes iterate "input"
  | collect : Takes collect "input"
  | object : Takes object "input"
  | pair : Takes pair "input"
  | arithmetic (op : Operation) {key : String} (hkey : key = "lhs" ∨ key = "rhs") :
    Takes (arithmetic op) key

/-- All inputs of the kind take one connection only. -/
def TakesOne (d : NodeDefinition) : Prop := ∀ s ∈ d.ports, s.role = .input → s.mode = .single

instance (d : NodeDefinition) : Decidable (TakesOne d) :=
  inferInstanceAs (Decidable (∀ s ∈ d.ports, s.role = .input → s.mode = .single))

/-- The kinds of nodes that make an array of what comes in. -/
inductive MakesArray : NodeDefinition → Prop
  | array : MakesArray array
  | collect : MakesArray collect

/-- The keys at which a kind of node gives something out. -/
inductive Gives : NodeDefinition → String → Prop
  | output (d : NodeDefinition) : Gives d "output"
  | index : Gives iterate "index"

/-- The ports of a kind of node: it takes something in or gives something out there. -/
inductive Has (d : NodeDefinition) : PortSpec → Prop
  | input {key : String} {mode : PortMode} : Takes d key → Has d (.input key mode)
  | output {key : String} : Gives d key → Has d (.output key)

theorem has_of_builtin {d : NodeDefinition} (h : Builtin d) : ∀ s ∈ d.ports, Has d s := by
  have last (d : NodeDefinition) : ∀ s ∈ [PortSpec.output "output"], Has d s :=
    List.forall_mem_singleton.2 (.output (.output d))
  cases h with
  | literal kind => exact last _
  | array => exact List.forall_mem_cons.2 ⟨.input .array, last _⟩
  | iterate =>
    exact List.forall_mem_cons.2 ⟨.input .iterate, List.forall_mem_cons.2
      ⟨.output (.output _), List.forall_mem_singleton.2 (.output .index)⟩⟩
  | collect => exact List.forall_mem_cons.2 ⟨.input .collect, last _⟩
  | object => exact List.forall_mem_cons.2 ⟨.input .object, last _⟩
  | pair => exact List.forall_mem_cons.2 ⟨.input .pair, last _⟩
  | arithmetic op =>
    exact List.forall_mem_cons.2 ⟨.input (.arithmetic op (.inl rfl)),
      List.forall_mem_cons.2 ⟨.input (.arithmetic op (.inr rfl)), last _⟩⟩
  | notFound => exact List.forall_mem_nil _

end NodeDefinition

open NodeDefinition in
theorem Catalogue.builtin_all : builtin.All NodeDefinition.Builtin :=
  all_builtin .literal .array .iterate .collect .object .pair .arithmetic .notFound

open NodeDefinition in
theorem Catalogue.builtin_inferred : builtin.All NodeDefinition.Inferred :=
  all_builtin literal_inferred array_inferred iterate_inferred collect_inferred object_inferred
    pair_inferred arithmetic_inferred notFound_inferred

open NodeDefinition in
/-- Arrays and objects alone take more than one connection at an input; every other kind of
`Catalogue.builtin` is `TakesOne`. -/
theorem Catalogue.builtin_takesOne (module type : String) :
    TakesOne (builtin.definition module type) ∨
      module = "Core" ∧ (type = "Array" ∨ type = "Object") := by
  have all {nodes : List (String × NodeDefinition)} (h : ∀ d ∈ nodes.map (·.2), TakesOne d) :
      TakesOne ((Std.ExtTreeMap.ofList nodes compare)[type]?.getD .notFound) := by
    cases hd : (Std.ExtTreeMap.ofList nodes compare)[type]? with
    | none => exact List.forall_mem_nil _
    | some d => exact h d (List.mem_map.2 ⟨_, Tables.mem_of_getElem?_ofList hd, rfl⟩)
  rw [definition, node?_builtin]
  split_ifs with _ _ hcore
  · exact .inl (all (by decide))
  · exact .inl (all (by decide))
  · cases hd : Module.core.nodes[type]? with
    | none => exact .inl (List.forall_mem_nil _)
    | some d =>
      have hmem := Tables.mem_of_getElem?_ofList hd
      simp only [List.mem_cons, Prod.mk.injEq, List.not_mem_nil, or_false] at hmem
      rcases hmem with ⟨rfl, rfl⟩ | ⟨rfl, rfl⟩ | ⟨rfl, rfl⟩ | ⟨rfl, rfl⟩ | ⟨rfl, rfl⟩ | ⟨rfl, rfl⟩ |
        ⟨rfl, rfl⟩ | ⟨rfl, rfl⟩ <;> first
        | exact .inl (by decide)
        | exact .inr ⟨hcore, by decide⟩
  · exact .inl (List.forall_mem_nil _)

end Dataflow
