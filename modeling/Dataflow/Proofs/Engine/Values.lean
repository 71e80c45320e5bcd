import Dataflow.Proofs.Engine.Combinations

/-! Questions about values.

The fingerprint of a scope, which is `Scope.key`, tells which iterators are bound to which places,
but not in which order they were bound. Where one of them feeds another the order makes a
difference: bound first, it leaves its mark on the elements of the other. So long as no two of them
are bound now in the one order and now in the other (`InOrder`), the fingerprint determines the
elements, and a value is found as it is without a memory (`valueDomain`). -/

namespace Dataflow

open Memo (Key)
open Relation (ReflTransGen TransGen)

/-- What counts in a table: values are never asked for while types are being worked out. -/
def Query.Counts : Query → Prop
  | value _ scope _ => scope.context = .root
  | _ => True

namespace Engine

variable {o : Precedence}

/-- A collector iterates over `entries` where `bound` are bound. -/
def Gathers (o : Precedence) (e : Engine) (c : NodeId) (bound entries : List NodeId) : Prop :=
  ∃ S d reads, (∀ x, S.isBound x ↔ x ∈ bound) ∧
    (Plan.openEntries c S).run (e.plain o d) = some (entries, reads)

/-- For the value of `r` the value of a node is asked for where `bound` are bound, in this order. An
iterator gives out the element that it is bound to, and only the collector that binds it asks for
what feeds it. -/
inductive Asked (o : Precedence) (e : Engine) (r : NodeId) : NodeId → List NodeId → Prop
  | root : Asked o e r r []
  | input {a b : NodeId} {bound : List NodeId} : Asked o e r b bound → e.isIterator b = false →
    e.isCollector b = false → e.graph.Feeds a b → Asked o e r a bound
  | gathered {a c : NodeId} {bound entries : List NodeId} : Asked o e r c bound → e.isCollector c →
    e.Gathers o c bound entries → e.graph.Feeds a c → Asked o e r a (bound ++ entries)
  | elements {a c x : NodeId} {bound pre post : List NodeId} : Asked o e r c bound →
    e.isCollector c → e.Gathers o c bound (pre ++ x :: post) → e.graph.Feeds a x →
    Asked o e r a (bound ++ pre)

/-- For the value of `r` iterators are bound in order, as far as one feeds another and what is
gathered depends on both. -/
def InOrder (o : Precedence) (e : Engine) (r : NodeId) : Prop :=
  ∀ {c x bound pre post}, e.Asked o r c bound → e.isCollector c →
    e.Gathers o c bound (pre ++ x :: post) → ∀ i ∈ bound ++ pre, TransGen e.graph.Feeds i c →
    (TransGen e.graph.Feeds i x → o.before i x) ∧
      (TransGen e.graph.Feeds x i → o.before x i = false)

/-- The value of `r` is found in a graph without a cycle, and `InOrder`. -/
structure Tame (o : Precedence) (e : Engine) (r : NodeId) : Prop where
  acyclic : e.graph.Acyclic
  inOrder : e.InOrder o r

variable {e : Engine} {r a c : NodeId} {S T : Scope}

/-- For the value of `r` the value of a node is asked for in the scope. -/
def AskedIn (o : Precedence) (e : Engine) (r a : NodeId) (S : Scope) : Prop :=
  ∃ bound, e.Asked o r a bound ∧ ∀ x, S.isBound x ↔ x ∈ bound

/-- What may be asked for the value of `r`. -/
def AboutValue (o : Precedence) (e : Engine) (r : NodeId) : Query → Prop
  | .value a S _ => e.AskedIn o r a S ∧ e.Fits o (ReflTransGen e.graph.Feeds · a) S
  | .bound a S => e.Fits o (ReflTransGen e.graph.Feeds · a) S
  | .elements n S => (∀ a, e.graph.Feeds a n.id → e.AskedIn o r a S) ∧
    e.Fits o (TransGen e.graph.Feeds · n.id) S
  | _ => True

/-- Such a question, if it has an answer. -/
def Asks (o : Precedence) (e : Engine) (r : NodeId) (q : Query) : Prop :=
  e.AboutValue o r q ∧ e.Settles o q

/-- The questions about what lies upstream of a node have answers. -/
structure Lower (o : Precedence) (e : Engine) (r id : NodeId) : Prop where
  value : ∀ a, e.graph.Feeds a id → ∀ S key, e.AboutValue o r (.value a S key) →
    e.Settles o (.value a S key)
  elements : ∀ n, TransGen e.graph.Feeds n.id id → ∀ S, e.AboutValue o r (.elements n S) →
    e.Settles o (.elements n S)

theorem Combination.askedIn {bound entries : List NodeId} (hS : ∀ x, S.isBound x ↔ x ∈ bound)
    {locals : Locals} (h : e.Combination o S c entries locals)
    (ha : e.Asked o r a (bound ++ entries)) : e.AskedIn o r a (S.child locals) := by
  refine ⟨_, ha, fun x => ?_⟩
  rw [h.bound, hS, List.mem_append, or_comm]

/-- A right answer is the answer without a memory, if all that is asked has one. -/
theorem run_of_ends {α : Type} {P : Query → Prop} {p : Plan α} {Q : α → Prop}
    (hP : ∀ q, P q → e.Settles o q) (h : p.Ends P (e.Right o) Q) :
    p.Ends P (e.Right o) fun a => Q a ∧ ∃ d reads, p.run (e.plain o d) = some (a, reads) := by
  induction p with
  | done a => exact ⟨h, 0, ∅, rfl⟩
  | ask q next ih =>
    obtain ⟨d, b, s, hb⟩ := (hP q h.1).exists
    refine ⟨h.1, fun a ha => ?_⟩
    obtain rfl := ha d b s hb
    refine (ih a (h.2 a ha)).mono fun v hv => ⟨hv.1, ?_⟩
    obtain ⟨-, d', reads, hd'⟩ := hv
    exact ⟨max d d', s ∪ reads, Plan.run_ask_some.2 ⟨a, s, reads,
      plain_mono (Nat.le_max_left ..) hb, run_plain_mono (Nat.le_max_right ..) hd', rfl⟩⟩

section Tame

variable (hg : e.graph.WellFormed) (ht : e.Tame o r)
  (hl : e.catalogue.All NodeDefinition.Layered) (hc : e.catalogue.All NodeDefinition.Flowing)

include hg ht hl

theorem valuesInto {n : Node} (h : e.Lower o r n.id)
    (hq : e.AboutValue o r (.elements n S)) : ValuesInto (e.Asks o r) (e.Right o) n S where
  connectionsInto key := ⟨trivial, settles_connectionsInto n.id key⟩
  value hcs hmem := by
    obtain rfl := right_connectionsInto hcs
    have hf := hg.feeds_of_mem_connectionsInto hmem
    have hv (key : String) : e.AboutValue o r (.value _ S key) :=
      ⟨hq.1 _ hf, hq.2.mono fun x hx => TransGen.tail' hx hf⟩
    exact ⟨hv _, h.value _ hf S _ (hv _)⟩
  expectedType key := ⟨trivial, (settles_deliveredType hg ht.acyclic hl ..).2⟩
  emptyValue type := ⟨trivial, settles_emptyValue type⟩

include hc

/-- A collector asks for the elements of what it iterates over, and then for its input in each
combination. -/
theorem collect_within {n : Node} (hcoll : e.isCollector n.id) (h : e.Lower o r n.id)
    (ha : e.AskedIn o r n.id S) (hS : e.Fits o (TransGen e.graph.Feeds · n.id) S) :
    (Plan.collect n.id S).Within (e.Asks o r) (e.Right o) := by
  obtain ⟨bound, ha, hbound⟩ := ha
  rw [Plan.collect_eq]
  refine Plan.Ends.bind (run_of_ends (fun _ hq => hq.2) <|
    openEntries_ends hg ht.acyclic hc (fun id => ⟨trivial, settles_node id⟩)
      (fun id key => ⟨trivial, settles_connectionsInto id key⟩) fun _ _ _ hs => ⟨trivial, hs⟩)
    fun entries hentries => ?_
  obtain ⟨hentries, d, reads, hrun⟩ := hentries
  have hgathers : e.Gathers o n.id bound entries := ⟨S, d, reads, hbound, hrun⟩
  split
  · exact Plan.Within.pure _
  refine Plan.Within.bind (.query ⟨trivial, settles_limit⟩) fun limit => ?_
  refine Plan.Ends.bind (combinations_ends hg ht.acyclic hc (fun _ hq => hq.2)
    (fun id => ⟨trivial, settles_node id⟩) limit hentries ?_ ?_ (by simpa using .empty hS))
    fun found hfound => ?_
  · rintro pre x post rfl i hi
    refine ht.inOrder ha hcoll hgathers i ?_
    rw [List.mem_append, ← hbound]
    exact hi
  · rintro pre m post rfl l (hcomb : e.Combination o S n.id pre l)
    have hm := (hentries.opened m.id (by simp)).1.feeds hg
    have hq : e.AboutValue o r (.elements m (S.child l)) :=
      ⟨fun a hf => hcomb.askedIn hbound (ha.elements hcoll hgathers hf),
        hcomb.fits.mono fun x hx => hx.trans hm⟩
    exact ⟨hq, h.elements m hm _ hq⟩
  cases found with
  | none => exact Plan.Within.pure _
  | some ls =>
    refine Plan.Within.bind (.mapM fun l hmem => ?_) fun _ => .pure _
    have hcomb : e.Combination o S n.id entries l := hfound ls rfl l hmem
    exact Plan.inputValue_within (valuesInto hg ht hl h
      ⟨fun a hf => hcomb.askedIn hbound (ha.gathered hcoll hgathers hf), hcomb.fits⟩) "input"

theorem valuePlan_within {id : NodeId} (h : e.Lower o r id) (key : String)
    (hq : e.AboutValue o r (.value id S key)) :
    (e.valuePlan id S key).Within (e.Asks o r) (e.Right o) := by
  obtain ⟨ha, hS⟩ := hq
  refine Plan.Ends.bind (.query ⟨trivial, settles_node id⟩) fun n hn => ?_
  cases n with
  | none => exact Plan.Within.pure _
  | some n =>
    have hn := (right_node hn).symm
    obtain rfl := hg.node_id hn
    have hS' := hS.mono fun x hx => TransGen.to_reflTransGen hx
    have hd := hc n.module n.type
    have hcoll := isCollector_eq hn
    have hiter := isIterator_eq hn
    cases hdi : (e.definition n).isIterator with
    | true => exact hd.element hdi ⟨hS, hS.settles_bound .refl⟩ key
    | false =>
      cases hdc : (e.definition n).isCollector with
      | true =>
        refine Eq.mpr (congrArg _ (hd.collects hdc n S key)) ?_
        exact collect_within hg ht hl hc (hcoll.trans hdc) h ha hS'
      | false =>
        obtain ⟨bound, ha, hbound⟩ := ha
        refine hd.value hdi hdc (valuesInto hg ht hl h ⟨fun a hf => ⟨bound, ?_, hbound⟩, hS'⟩) key
        exact ha.input (hiter.trans hdi) (hcoll.trans hdc) hf

theorem elements_within {n : Node} (h : e.Lower o r n.id) (hq : e.AboutValue o r (.elements n S)) :
    ((e.definition n).elements n S).Within (e.Asks o r) (e.Right o) := by
  have hd := hc n.module n.type
  cases hi : (e.definition n).isIterator with
  | true =>
    refine Eq.mpr (congrArg _ (hd.elements hi n S)) ?_
    exact .map (Plan.inputValue_within (valuesInto hg ht hl h hq) "input") _
  | false =>
    refine Eq.mpr (congrArg _ (hd.still hi n S)) ?_
    exact .pure _

theorem lower (id : NodeId) : e.Lower o r id := by
  induction id using (ht.acyclic.wellFounded hg).transGen.induction with
  | _ id ih =>
    refine ⟨fun a hf S key hq => settles_of_within rfl ?_,
      fun n hp S hq => settles_of_within rfl ?_⟩
    · exact (valuePlan_within hg ht hl hc (ih a (.single hf)) key hq).weaken fun _ hq => hq.2
    · exact (elements_within hg ht hl hc (ih n.id hp) hq).weaken fun _ hq => hq.2

/-! ## Their domain -/

theorem method_within_value {q : Query} (hq : e.AboutValue o r q) :
    (e.method q).Within (e.AboutValue o r) (e.Right o) := by
  have types {q : Query} (hq : q.AboutTypes) :
      (e.method q).Within (e.AboutValue o r) (e.Right o) := by
    refine Method.Within.weaken (method_within (hl.mono fun _ h => h.typed) hq) fun q hq => ?_
    cases q <;> trivial
  cases q with
  | value id S key =>
    exact (valuePlan_within hg ht hl hc (lower hg ht hl hc id) key hq).weaken fun _ hq => hq.1
  | elements n S =>
    exact (elements_within hg ht hl hc (lower hg ht hl hc n.id) hq).weaken fun _ hq => hq.1
  | bound id S =>
    simp only [method]
    split <;> trivial
  | visit id S seen found =>
    exact visitPlan_within (fun _ => trivial) (fun _ _ => trivial) (fun _ _ _ => trivial) id seen
      found
  | _ => exact types trivial

/-- With one fingerprint go the same answers: two scopes in which the value of a node is asked for
for `r` agree where their keys are the same, and then by `sameIn` so do the answers. -/
theorem valueDomain : e.Domain o (e.AboutValue o r) Query.Counts where
  counted {q} hq := by
    cases q with
    | value id S key => exact hq.2.context
    | _ => trivial
  closed hq := method_within_value hg ht hl hc hq
  placed {q} hq := by
    cases q with
    | bound id S =>
      cases h : S.lookup id with
      | none => exact .inl (by simp only [placed, method, h])
      | some l =>
        obtain ⟨d, hd⟩ := hq.placed id .refl l h
        exact .inr ⟨some l, l.sources, d, by simp only [method, h], hd⟩
    | _ => exact .inl rfl
  keyed {q q' k} hq hq' hk hk' d := by
    have hkey := e.method_key? hk
    have hkey' := e.method_key? hk'
    by_cases htypes : q.AboutTypes
    · obtain rfl := Query.eq_of_key? htypes (Option.isSome_iff_exists.2 ⟨_, hkey⟩)
        (hkey.trans hkey'.symm)
      rfl
    cases q with
    | value id S key =>
      cases hkey
      cases q' with
      | value id' S' key' =>
        obtain ⟨rfl, hS, rfl⟩ : id' = id ∧ S'.key = S.key ∧ key' = key := by
          simpa [Query.key?, Key.inScope] using hkey'
        have hsame := valuePlan_congr (o := o) hg ht.acyclic hc (fun _ _ _ _ => trivial)
          (fun S T h => sameIn hg ht.acyclic hc (fun _ _ _ _ => trivial) h d)
          (Scope.AgreeOn.of_key (hq.2.context.trans hq'.symm) hS.symm) id' trivial key'
        simp only [method, Method.filed, Slot.value, hsame, hS]
      | _ => simp [Query.key?, Key.inScope, Key.inContext] at hkey'
    | bound | visit | elements => cases hkey
    | _ => exact absurd trivial htypes

end Tame

end Engine

end Dataflow
