import Dataflow.Proofs.Session.Audit
import Dataflow.Proofs.Session.Values
import Dataflow.Proofs.ValueType.EmptyValue

/-! What an input receives to which nothing is connected: the empty value of the type that is
expected there. It is of that type unless it would have to have fields. -/

namespace Dataflow.Session

open ValueType

variable {s : Session} {id : NodeId} {key : String}

/-- What comes in is the empty value of what is expected, whatever was asked before. -/
theorem inputValue_unconnected (h : s.Reached) (hc : s.catalogue.Typed)
    (hnone : s.graph.connectionsInto id key = []) (S : Scope) :
    (perform (Plan.inputValue id key S) s).1 =
      (perform (Plan.expectedType id key S.context) s).1.emptyValue s.catalogue.kinds := by
  have hdomain : s.engine.Domain .last Query.AboutTypes Query.AboutTypes :=
    Engine.typesDomain hc fun _ hq => hq
  have hvalue : (Plan.inputValue id key S).Within Query.AboutTypes (s.engine.Right .last ) := by
    refine Plan.Ends.bind (.query (q := .connectionsInto id key) trivial) fun cs hcs => ?_
    obtain rfl : cs = [] := (Engine.right_connectionsInto hcs).trans hnone
    exact Plan.Within.bind (.query (q := .expectedType id key S.context) trivial) fun t =>
      .query (q := .emptyValue t) trivial
  have hempty (t : ValueType) :
      s.engine.reply (.emptyValue t) = t.emptyValue s.catalogue.kinds :=
    hdomain.reply_right (q := .emptyValue t) trivial 1 _ _ rfl
  have hexpected := perform_eval h hc (p := Plan.expectedType id key S.context) fun _ =>
    .query (q := .expectedType id key S.context) trivial
  have hinto : s.engine.reply (.connectionsInto id key) = [] :=
    (Engine.reply_connectionsInto id key).trans hnone
  rw [hexpected]
  refine (hdomain.perform_eval hvalue (h.remembers.sound hc)).trans ?_
  simp only [Plan.inputValue, Plan.eval_bind, Plan.eval_connectionsInto, hinto,
    Plan.eval_expectedType]
  exact hempty _

/-- A type made by the constructors accepts its empty value exactly if it is not `Demanding`, which
is to call for an object with fields, and an input to which nothing is connected receives the empty
value of what is expected of it (`inputValue_unconnected`). -/
theorem empty_accepted_iff (t : ValueType) (ht : t.Faultless) :
    (accepts Catalogue.builtin.kinds t (t.emptyValue Catalogue.builtin.kinds) ↔ ¬t.Demanding) ∧
    ∀ s : Session, s.Reached → s.catalogue = .builtin → ∀ (id : NodeId) (key : String) (S : Scope),
      s.graph.connectionsInto id key = [] →
      (perform (Plan.expectedType id key S.context) s).1 = t →
      let v := (perform (Plan.inputValue id key S) s).1
      v = t.emptyValue Catalogue.builtin.kinds ∧
        (accepts Catalogue.builtin.kinds t v ↔ ¬t.Demanding) := by
  have hempty := ht.accepts_emptyValue (coreKinds_of_core core_builtin)
  refine ⟨hempty, fun s h hc id key S hnone hexpected => ?_⟩
  have hv := inputValue_unconnected h (hc ▸ Catalogue.builtin_typed) hnone S
  rw [hexpected, hc] at hv
  refine ⟨hv, ?_⟩
  rw [hv]
  exact hempty

/-! ### An object to be filled in -/

/-- The array 3 holds an object with a field `a`, and the elements of the array 5. -/
def blank : Snapshot :=
  ⟨"blank", 1,
    [coreNode 0 "String" ∅, coreNode 1 "Pair" ((∅ : Params).insert "key" (.text "a")),
      coreNode 2 "Object" ∅, coreNode 3 "Array" ∅, coreNode 4 "Iterate" ∅, coreNode 5 "Array" ∅],
    [wire 0 0 1 0, wire 1 1 2 0, wire 2 2 3 0, wire 3 4 3 1, wire 4 5 4 0]⟩

def form : Session := (load blank (start .default .builtin)).2

theorem form_reached : form.Reached := .load _ (.start _ _)

theorem connectionsInto_form : form.graph.connectionsInto ⟨5⟩ "input" = [] := by decide +kernel

theorem expectedType_form :
    (perform (Plan.expectedType ⟨5⟩ "input" .root) form).1 = object [("a", string)] :=
  perform_map_eq (d := 20) id (by decide +kernel)

/-- A pair of an array of objects with a field does not have any, in its empty value. The input
calls for an object with a field. -/
theorem empty_accepted_iff_form :
    accepts Catalogue.builtin.kinds (pair (array (object [("a", string)])))
        ((pair (array (object [("a", string)]))).emptyValue Catalogue.builtin.kinds) ∧
      (perform (Plan.inputValue ⟨5⟩ "input" (.root .root)) form).1 =
        (object [("a", string)]).emptyValue Catalogue.builtin.kinds := by
  have hd : ¬(pair (array (object [("a", string)]))).Demanding := by
    rw [Demanding.pair_iff]
    exact fun h => by simpa [array, core] using h.name
  refine ⟨(empty_accepted_iff _ (.pair (.array (.single .string)))).1.2 hd, ?_⟩
  exact ((empty_accepted_iff _ (.single .string)).2 form form_reached rfl ⟨5⟩ "input" (.root .root)
    connectionsInto_form expectedType_form).1

/-- An object with a field is expected, and one without fields is received. -/
theorem form_not_accepted :
    (perform (Plan.expectedType ⟨5⟩ "input" .root) form).1 = object [("a", string)] ∧
    (perform (Plan.inputValue ⟨5⟩ "input" (.root .root)) form).1 =
      (object [("a", string)]).emptyValue Catalogue.builtin.kinds ∧
    (object [("a", string)]).Faultless ∧
    accepts Catalogue.builtin.kinds (object [("a", string)])
      ((object [("a", string)]).emptyValue Catalogue.builtin.kinds) = false := by
  have hv := inputValue_unconnected form_reached Catalogue.builtin_typed connectionsInto_form
    (.root .root)
  refine ⟨expectedType_form, hv.trans (congrArg _ expectedType_form), .single .string, ?_⟩
  rw [Bool.eq_false_iff, ne_eq, accepts_emptyValue_object (coreKinds_of_core core_builtin)]
  simp

end Dataflow.Session
