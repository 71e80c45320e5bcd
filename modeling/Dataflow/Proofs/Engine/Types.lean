import Dataflow.Proofs.Definition.Layered
import Dataflow.Proofs.Engine.Bystanders

/-! Questions about types, ports and connections (`Query.AboutTypes`).

Where the kinds of nodes find their types by such questions alone (`Catalogue.Typed`), these give
rise to no others. -/

namespace Dataflow

open Memo (Key)

/-- Neither values nor elements are asked for. -/
def Query.AboutTypes : Query → Prop
  | value _ _ _ | bound _ _ | visit _ _ _ _ | elements _ _ => False
  | _ => True

/-- The types of the kind of node are found by questions about types. That is what static types come
to: a kind of node is given a `Context` of types to find its types in, and a `Scope`, in which
values are asked for, only where it is asked for a value itself. -/
structure NodeDefinition.Typed (d : NodeDefinition) : Prop where
  outputType : ∀ n key context right, (d.outputType n key context).Within Query.AboutTypes right
  inputType : ∀ n key context right, (d.inputType n key context).Within Query.AboutTypes right

theorem NodeDefinition.Layered.typed {d : NodeDefinition} (h : d.Layered) : d.Typed where
  outputType _ key _ _ := h.outputType ⟨fun _ => trivial, fun _ => trivial, fun _ _ => trivial⟩ key
  inputType _ key _ _ := h.inputType trivial key

/-- All kinds of nodes find their types by questions about types. -/
def Catalogue.Typed (c : Catalogue) : Prop := c.All NodeDefinition.Typed

theorem Catalogue.builtin_typed : builtin.Typed :=
  builtin_layered.mono fun _ h => h.typed

/-! ## Their domain -/

theorem into_ne_from (a b : String) : "into:" ++ a ≠ "from:" ++ b := by
  intro h
  have := congrArg String.toList h
  simp at this

theorem Context.key_inj {c d : Context} : c.key = d.key ↔ c = d := by
  cases c; cases d
  simp only [Context.key, Std.ExtTreeSet.toList_inj, Context.mk.injEq]

/-- The key tells the question, among questions about types. -/
theorem Query.eq_of_key? {q q' : Query} (hq : q.AboutTypes) (hs : q.key?.isSome)
    (h : q.key? = q'.key?) : q = q' := by
  cases q <;> cases q' <;>
    simp_all [key?, AboutTypes, Key.inScope, Key.inContext, Context.key_inj, into_ne_from,
      (into_ne_from _ _).symm]

namespace Engine

variable {e : Engine}

theorem portsPlan_within {P : Query → Prop} {n : Node} (h : ∀ key, P (.connectionsInto n.id key))
    {right : (q : Query) → q.Answer → Prop} : (portsPlan n).Within P right := by
  refine .bind (.mapM fun s _ => ?_) fun _ => .pure _
  unfold portsOfSpec
  cases s.mode with
  | duplicate =>
    exact .bind (.bind (.query (h s.key)) fun _ => .pure _) fun _ => .pure _
  | single => exact .bind (.pure _) fun _ => .pure _
  | multiple => exact .bind (.pure _) fun _ => .pure _

theorem outputTypePlan_within (hc : e.catalogue.Typed) (id : NodeId) (key : String)
    (context : Context) {right : (q : Query) → q.Answer → Prop} :
    (e.outputTypePlan id key context).Within Query.AboutTypes right := by
  refine .bind (.query (q := .node id) trivial) fun n => ?_
  cases n with
  | none => exact .pure _
  | some n => exact (hc n.module n.type).outputType n key context right

theorem deliveredTypePlan_within (id : NodeId) (key : String) (context : Context)
    {right : (q : Query) → q.Answer → Prop} :
    (e.deliveredTypePlan id key context).Within Query.AboutTypes right :=
  .bind (.query (q := .outputType id key (context.withProvisional id)) trivial) fun _ =>
    .bind (.query (q := .connectionsFrom id key) trivial) fun _ =>
      .bind (.mapM fun _ _ => .query trivial) fun _ => .pure _

theorem expectedTypePlan_within (hc : e.catalogue.Typed) (id : NodeId) (key : String)
    (context : Context) {right : (q : Query) → q.Answer → Prop} :
    (e.expectedTypePlan id key context).Within Query.AboutTypes right := by
  refine .bind (.query (q := .node id) trivial) fun n => ?_
  cases n with
  | none => exact .pure _
  | some n =>
    refine .bind ((hc n.module n.type).inputType n key context right) fun t => ?_
    cases t <;> exact .pure _

theorem method_within (hc : e.catalogue.Typed) {q : Query} (hq : q.AboutTypes)
    {right : (q : Query) → q.Answer → Prop} : (e.method q).Within Query.AboutTypes right := by
  cases q with
  | node id => trivial
  | connectionsInto id key => trivial
  | connectionsFrom id key => trivial
  | ports id =>
    simp only [method]
    split
    · trivial
    · exact portsPlan_within fun _ => trivial
  | outputType id key context => exact outputTypePlan_within hc ..
  | deliveredType id key context =>
    simp only [method]
    split
    · trivial
    · exact deliveredTypePlan_within ..
  | expectedType id key context => exact expectedTypePlan_within hc ..
  | emptyValue type => trivial
  | limit => trivial
  | _ => cases hq

theorem placed_of_aboutTypes {o : Precedence} {q : Query} (hq : q.AboutTypes) :
    e.placed o q = e.method q := by
  cases q with
  | bound => cases hq
  | _ => rfl

/-- Questions about types are a domain of their own. Whatever other questions count, these have keys
of their own, by `Query.eq_of_key?`. -/
theorem typesDomain {o : Precedence} (hc : e.catalogue.Typed) {K : Query → Prop}
    (hK : ∀ q, q.AboutTypes → K q) : e.Domain o Query.AboutTypes K where
  counted hq := hK _ hq
  closed hq := method_within hc hq
  placed hq := .inl (placed_of_aboutTypes hq)
  keyed hq _ hk hk' _ := by
    obtain rfl := Query.eq_of_key? hq (Option.isSome_iff_exists.2 ⟨_, e.method_key? hk⟩)
      ((e.method_key? hk).trans (e.method_key? hk').symm)
    rfl

theorem types_apart : Apart Query.AboutTypes := by
  intro q q' k hq hk hq' hk'
  obtain rfl := Query.eq_of_key? hq (Option.isSome_iff_exists.2 ⟨k, hk⟩) (hk.trans hk'.symm)
  exact hq' hq

end Engine

end Dataflow
