import Dataflow.Proofs.Engine.Search

/-! Answers in scopes that agree (`Scope.AgreeOn`).

Without a memory an answer does not rest on the elements that a scope holds but on their places, and
only on the places of what lies upstream (`sameIn`). -/

namespace Dataflow

namespace Plan

variable {α : Type} {S T : Scope}

/-- What a collector gathers in each of some combinations. -/
def gather (collector : NodeId) (S : Scope) : Option (List Locals) → Plan Value
  | none => return .array []
  | some locals => return .array (← locals.mapM fun l => inputValue collector "input" (S.child l))

theorem collect_eq (collector : NodeId) (S : Scope) :
    collect collector S = openEntries collector S >>= fun entries =>
      if entries.isEmpty then pure (.array [])
      else query .limit >>= fun limit =>
        combinations limit S entries [∅] >>= gather collector S := by
  rw [collect]
  refine bind_congr fun entries => ?_
  split
  · rfl
  simp only [expand, LawfulMonad.bind_assoc, LawfulMonad.pure_bind]
  refine bind_congr fun limit => bind_congr fun locals => ?_
  cases locals with
  | none => rfl
  | some locals => simp [gather, List.mapM_map, Function.comp_def]

end Plan

namespace Engine

variable {o : Precedence} {e : Engine} {α : Type} {S T : Scope} {U : NodeId → Prop} {d : Nat}

/-- What a plan ends with is known of each run of it. -/
theorem of_run {P : Query → Prop} {Q : α → Prop} {p : Plan α} (h : p.Ends P (e.Right o) Q) {a : α}
    {reads : NodeSet} (hp : p.run (e.plain o d) = some (a, reads)) : Q a := by
  induction p generalizing reads with
  | done b =>
    obtain ⟨rfl, -⟩ := Plan.run_done_some.1 hp
    exact h
  | ask q next ih =>
    obtain ⟨b, r, s, hb, hn, -⟩ := Plan.run_ask_some.1 hp
    exact ih b (h.2 b (right_of_plain hb)) hn

/-- Questions about the nodes of `U` have the same answers in both scopes. -/
structure SameIn (o : Precedence) (e : Engine) (U : NodeId → Prop) (S T : Scope) (d : Nat) :
    Prop where
  value : ∀ id key, U id → e.plain o d (.value id S key) = e.plain o d (.value id T key)
  bound : ∀ id, U id → e.plain o d (.bound id S) = e.plain o d (.bound id T)
  visit : ∀ id seen found, U id →
    e.plain o d (.visit id S seen found) = e.plain o d (.visit id T seen found)
  elements : ∀ n, (∀ a, e.graph.Feeds a n.id → U a) →
    e.plain o d (.elements n S) = e.plain o d (.elements n T)

theorem plain_value {id : NodeId} {key : String} : e.plain o (d + 1) (.value id S key) =
    ((e.valuePlan id S key).run (e.plain o d)).andThen fun v reads => (v, {id} ∪ reads) :=
  rfl

theorem plain_visit {id : NodeId} {seen : NodeSet} {found : List NodeId} :
    e.plain o (d + 1) (.visit id S seen found) = (e.visitPlan id S seen found).run (e.plain o d) :=
  rfl

theorem plain_elements {n : Node} : e.plain o (d + 1) (.elements n S) =
    (((e.definition n).elements n S).run (e.plain o d)).andThen
      fun values reads => ((values, reads), reads) :=
  rfl

theorem plain_bound {id : NodeId} {i : Nat} (h : S.place? id = some i) :
    e.plain o (d + 1) (.bound id S) = (Plan.elementAt o id S i).run (e.plain o d) := by
  obtain ⟨l, hl, rfl⟩ := Option.map_eq_some_iff.1 h
  change (e.placed o (.bound id S)).read _ = _
  simp only [placed, hl, Method.read]

theorem plain_unbound {id : NodeId} (h : S.place? id = none) :
    e.plain o (d + 1) (.bound id S) = some (none, ∅) := by
  have hl := Option.map_eq_none_iff.1 h
  change (e.placed o (.bound id S)).read _ = _
  simp only [placed, hl, Method.read]
  rfl

theorem SameIn.into (hg : e.graph.WellFormed) (h : e.SameIn o U S T d) (hST : S.AgreeOn U T)
    {n : Node} (hU : ∀ a, e.graph.Feeds a n.id → U a) : AlikeInto (e.plain o d) n S T where
  context := hST.context
  value hcs hmem := by
    obtain rfl := right_connectionsInto (right_of_plain hcs)
    exact h.value _ _ (hU _ (hg.feeds_of_mem_connectionsInto hmem))

theorem run_node {id : NodeId} {n : Option Node} {reads : NodeSet}
    (h : (Plan.node? id).run (e.plain o d) = some (n, reads)) : e.graph.node? id = n := by
  rw [Plan.node?, Plan.run_query] at h
  exact (right_node (right_of_plain h)).symm

/-- A bound iterator has the same element where the same ones are bound before it. -/
theorem bound_congr (hg : e.graph.WellFormed) {id : NodeId} (hp : S.place? id = T.place? id)
    (h : e.SameIn o U (S.only (o.before · id)) (T.only (o.before · id)) d)
    (hU : ∀ a, e.graph.Feeds a id → U a) :
    e.plain o (d + 1) (.bound id S) = e.plain o (d + 1) (.bound id T) := by
  cases hT : T.place? id with
  | none => rw [plain_unbound (hp.trans hT), plain_unbound hT]
  | some i =>
    rw [plain_bound (hp.trans hT), plain_bound hT]
    refine Plan.run_bind_congr rfl fun n _ hn => ?_
    cases n with
    | none => rfl
    | some n =>
      obtain rfl := hg.node_id (run_node hn)
      refine Plan.run_bind_congr ?_ fun _ _ _ => rfl
      exact (Plan.run_query _ _).trans ((h.elements n hU).trans (Plan.run_query _ _).symm)

theorem visitAll_congr (h : e.SameIn o U S T d) {ids : List NodeId} (hids : ∀ a ∈ ids, U a)
    (st : NodeSet × List NodeId) :
    (Plan.visitAll S st ids).run (e.plain o d) = (Plan.visitAll T st ids).run (e.plain o d) := by
  induction ids generalizing st with
  | nil => rfl
  | cons a ids ih =>
    rw [Plan.visitAll, Plan.visitAll, List.foldlM_cons, List.foldlM_cons]
    have ih := ih fun b hb => hids b (List.mem_cons_of_mem _ hb)
    refine Plan.run_bind_congr ?_ fun st' _ _ => ih st'
    exact (Plan.run_query _ _).trans
      ((h.visit a st.1 st.2 (hids a List.mem_cons_self)).trans (Plan.run_query _ _).symm)

theorem extend_congr (h : ∀ locals, e.SameIn o U (S.child locals) (T.child locals) d) {n : Node}
    (hU : ∀ a, e.graph.Feeds a n.id → U a) (limit count : Nat) (next locals : List Locals) :
    (Plan.extend limit S n count next locals).run (e.plain o d) =
      (Plan.extend limit T n count next locals).run (e.plain o d) := by
  induction locals generalizing count next with
  | nil => rfl
  | cons l locals ih =>
    rw [Plan.extend, Plan.extend]
    refine Plan.run_bind_congr ?_ fun vs _ _ => ?_
    · exact (Plan.run_query _ _).trans (((h l).elements n hU).trans (Plan.run_query _ _).symm)
    · dsimp only
      split
      · rfl
      · exact ih _ _

theorem combinations_congr (hg : e.graph.WellFormed)
    (h : ∀ locals, e.SameIn o U (S.child locals) (T.child locals) d) {entries : List NodeId}
    (hU : ∀ x ∈ entries, ∀ a, e.graph.Feeds a x → U a) (limit : Nat)
    (locals : List Locals) :
    (Plan.combinations limit S entries locals).run (e.plain o d) =
      (Plan.combinations limit T entries locals).run (e.plain o d) := by
  induction entries generalizing locals with
  | nil => rfl
  | cons x entries ih =>
    have ih := ih fun y hy => hU y (List.mem_cons_of_mem _ hy)
    have hx := hU x List.mem_cons_self
    rw [Plan.combinations, Plan.combinations]
    refine Plan.run_bind_congr rfl fun n _ hn => ?_
    cases n with
    | none => exact ih locals
    | some n =>
      obtain rfl := hg.node_id (run_node hn)
      refine Plan.run_bind_congr (extend_congr h hx ..) fun next _ _ => ?_
      cases next with
      | none => rfl
      | some next => exact ih next

section Agree

variable (hg : e.graph.WellFormed) (ha : e.graph.Acyclic)
  (hc : e.catalogue.All NodeDefinition.Flowing)

include hg ha hc

theorem collect_congr (hup : ∀ a b, e.graph.Feeds a b → U b → U a)
    (hs : ∀ S T, S.AgreeOn U T → e.SameIn o U S T d) (h : S.AgreeOn U T) {n : Node}
    (hn : e.graph.node? n.id = some n) (hU : ∀ a, e.graph.Feeds a n.id → U a) :
    (Plan.collect n.id S).run (e.plain o d) = (Plan.collect n.id T).run (e.plain o d) := by
  rw [Plan.collect_eq, Plan.collect_eq]
  refine Plan.run_bind_congr ?_ fun entries _ hentries => ?_
  · refine Plan.run_bind_congr rfl fun n' _ hn' => ?_
    cases n' with
    | none => rfl
    | some n' =>
      obtain rfl : n = n' := Option.some.inj (hn.symm.trans (run_node hn'))
      refine Plan.run_bind_congr rfl fun ids _ hids => ?_
      have hids := of_run (suppliers_ends (P := fun _ => True) right_connectionsInto hn rfl
        fun _ => trivial) hids
      refine Plan.run_map_congr (visitAll_congr (hs S T h) (fun a hmem => ?_) _) Prod.snd
      exact hU a (hg.feeds_of_supplies ((hids a).1 hmem))
  have hentries : e.Entries S n.id entries :=
    of_run (openEntries_ends (P := fun _ => True) hg ha hc (fun _ => trivial) (fun _ _ => trivial)
      fun _ _ _ _ => trivial) hentries
  split
  · rfl
  refine Plan.run_bind_congr rfl fun limit _ _ => ?_
  refine Plan.run_bind_congr (combinations_congr hg (fun l => hs _ _ (h.child l)) ?_ ..)
    fun locals _ _ => ?_
  · -- what feeds an entry feeds the collector through others
    intro x hx a hax
    obtain ⟨b, hxb, hb⟩ := Relation.TransGen.tail'_iff.1 ((hentries.opened x hx).1.feeds hg)
    refine hup a x hax ?_
    exact Relation.ReflTransGen.head_induction_on hxb (hU b hb) fun hf _ ih => hup _ _ hf ih
  cases locals with
  | none => rfl
  | some locals =>
    refine Plan.run_bind_congr (Plan.run_mapM_congr fun l _ => ?_) fun _ _ _ => rfl
    exact Plan.inputValue_congr ((hs _ _ (h.child l)).into hg (h.child l) hU) "input"

theorem valuePlan_congr (hup : ∀ a b, e.graph.Feeds a b → U b → U a)
    (hs : ∀ S T, S.AgreeOn U T → e.SameIn o U S T d) (h : S.AgreeOn U T) (id : NodeId) (hid : U id)
    (key : String) :
    (e.valuePlan id S key).run (e.plain o d) = (e.valuePlan id T key).run (e.plain o d) := by
  refine Plan.run_bind_congr rfl fun n _ hn => ?_
  cases n with
  | none => rfl
  | some n =>
    have hn := run_node hn
    obtain rfl := hg.node_id hn
    have hd := hc n.module n.type
    have hU (a : NodeId) (hf : e.graph.Feeds a n.id) : U a := hup a _ hf hid
    cases hcoll : (e.definition n).isCollector with
    | true =>
      refine (congrArg (Plan.run (e.plain o d)) (hd.collects hcoll n S key)).trans ?_
      refine Eq.trans ?_ (congrArg (Plan.run (e.plain o d)) (hd.collects hcoll n T key)).symm
      exact collect_congr hg ha hc hup hs h hn hU
    | false =>
      exact hd.alike hcoll ((hs S T h).into hg h hU) (fun _ => (hs S T h).bound n.id hid) key

omit ha hc in
theorem visitPlan_congr (hup : ∀ a b, e.graph.Feeds a b → U b → U a) (hs : e.SameIn o U S T d)
    (h : S.AgreeOn U T) {id : NodeId} (hid : U id) {seen : NodeSet} {found : List NodeId} :
    (e.visitPlan id S seen found).run (e.plain o d) =
      (e.visitPlan id T seen found).run (e.plain o d) := by
  unfold visitPlan
  split
  · rfl
  refine Plan.run_bind_congr rfl fun n _ hn => ?_
  cases n with
  | none => rfl
  | some n =>
    have hn := run_node hn
    dsimp only
    split
    · rfl
    refine Plan.run_bind_congr rfl fun ids _ hids => ?_
    have hids := of_run (suppliers_ends (P := fun _ => True) right_connectionsInto hn
      (hg.node_id hn) fun _ => trivial) hids
    refine Plan.run_bind_congr (visitAll_congr hs (fun a hmem => ?_) _) fun st _ _ => ?_
    · exact hup a id (hg.feeds_of_supplies ((hids a).1 hmem)) hid
    · rw [h.isBound hid]

/-- The nodes of `U` are asked about with all that lies upstream of them. By induction on the depth,
for all scopes at once, since a collector goes on to larger ones. -/
theorem sameIn (hup : ∀ a b, e.graph.Feeds a b → U b → U a) (h : S.AgreeOn U T) (d : Nat) :
    e.SameIn o U S T d := by
  induction d generalizing S T with
  | zero => exact ⟨fun _ _ _ => rfl, fun _ _ => rfl, fun _ _ _ _ => rfl, fun _ _ => rfl⟩
  | succ d ih =>
    refine ⟨fun id key hid => ?_, fun id hid => ?_, fun id seen found hid => ?_, fun n hU => ?_⟩
    · rw [plain_value, plain_value, valuePlan_congr hg ha hc hup (fun S T => ih) h id hid key]
    · exact bound_congr hg (h.place id hid) (ih (h.only _)) fun a hf => hup a id hf hid
    · rw [plain_visit, plain_visit]
      exact visitPlan_congr hg hup (ih h) h hid
    · suffices hrun : ((e.definition n).elements n S).run (e.plain o d) =
          ((e.definition n).elements n T).run (e.plain o d) by
        rw [plain_elements, plain_elements, hrun]
      have hd := hc n.module n.type
      cases hi : (e.definition n).isIterator with
      | false =>
        exact congrArg (Plan.run (e.plain o d)) ((hd.still hi n S).trans (hd.still hi n T).symm)
      | true =>
        refine (congrArg (Plan.run (e.plain o d)) (hd.elements hi n S)).trans ?_
        refine Eq.trans ?_ (congrArg (Plan.run (e.plain o d)) (hd.elements hi n T)).symm
        exact Plan.run_map_congr (Plan.inputValue_congr ((ih h).into hg h hU) "input") _

end Agree

end Engine

end Dataflow
