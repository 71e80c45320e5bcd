import Dataflow.Proofs.Engine.Contract
import Dataflow.Proofs.Engine.Rank
import Dataflow.Proofs.Query.Expansion

/-! What comes up for a question is of a lower rank, in the same surroundings or in larger ones.

There is no need for the graph to be without a cycle. It is enough that the answers tell what the
graph holds, and that a search for iterators finds only those that are not bound (`Engine.Tells`).
-/

namespace Dataflow

open Memo (Key)

namespace Engine

variable {e : Engine} {S T : Scope} {working : List Key}

/-- What answers say about the graph, and what a search for iterators finds. -/
def Tells (e : Engine) : (q : Query) → q.Answer → Prop
  | .node id, n => n = e.graph.node? id
  | .connectionsInto id key, cs => cs = e.graph.connectionsInto id key
  | .connectionsFrom id key, cs => cs = e.graph.connectionsFrom id key
  | .visit _ S seen found, st => (∀ a ∈ seen, a ∈ st.1) ∧
    ∀ x ∈ st.2, x ∈ found ∨ e.isIterator x ∧ S.isBound x = false
  | _, _ => True

/-- What may come up for a question of rank `n`: what the question `Leads` to, of a lower rank. -/
def descent (e : Engine) (q : Query) (n : Nat) : Contract where
  asks working q' := Calm working ∧ e.Leads q q' ∧ e.rank working q' < n
  good := e.Tells
  filed := e.FilesConnections

variable {q q' : Query} {m : Nat} {C : Context} {n : Node}

/-- What is asked about the graph has no surroundings. -/
theorem Leads.of_none (h : q'.context? = none) : e.Leads q q' where
  scope T hT := by
    rw [Query.context?_of_scope? hT] at h
    cases h
  context D hD := by
    rw [hD] at h
    cases h

theorem Leads.inScope (hq : q.scope? = some S) (hq' : q'.scope? = some T) (h : e.Extends S T) :
    e.Leads q q' where
  scope T' hT' := by
    cases hq'.symm.trans hT'
    exact ⟨S, hq, h⟩
  context D hD := by
    cases (Query.context?_of_scope? hq').symm.trans hD
    exact ⟨_, Query.context?_of_scope? hq, .inl h.context⟩

theorem Leads.inContext (hq : q.context? = some C) (hs : q'.scope? = none)
    (hq' : q'.context? = some C) : e.Leads q q' where
  scope T hT := by
    rw [hs] at hT
    cases hT
  context D hD := by
    cases hq'.symm.trans hD
    exact ⟨_, hq, .inl rfl⟩

theorem Leads.provisional {id : NodeId} (hq : q.context? = some C) (hs : q'.scope? = none)
    (hid : C.provisional? id = none) (hq' : q'.context? = some (C.withProvisional id)) :
    e.Leads q q' where
  scope T hT := by
    rw [hs] at hT
    cases hT
  context D hD := by
    cases hq'.symm.trans hD
    exact ⟨_, hq, .inr ⟨id, hid, rfl⟩⟩

section Methods

variable (hg : e.graph.WellFormed) (hw : Calm working)

include hg hw

theorem typesInto_descends (hq : q.context? = some C)
    (hm : e.graph.sourcesLeft working (typeKey C) + 1 ≤ m) :
    TypesInto ((e.descent q m).asks working) e.Tells n C where
  node _ := ⟨hw, .of_none rfl, Nat.lt_of_lt_of_le (Nat.succ_pos _) hm⟩
  connectionsInto _ := ⟨hw, .of_none rfl, Nat.lt_of_lt_of_le (Nat.succ_pos _) hm⟩
  outputType hcs hc := by
    subst hcs
    have hmem := hg.mem_connectionList.2 (hg.mem_connectionsInto.1 hc).1
    exact ⟨hw, .inContext hq rfl rfl, Nat.lt_of_lt_of_le (rank_outputType_lt hmem) hm⟩

theorem valuesInto_descends (hq : q.scope? = some S) (hT : e.Extends S T)
    (hm : e.scopeRank T + 2 * e.graph.sourcesLeft working (valueKey T) ≤ m) :
    ValuesInto ((e.descent q m).asks working) e.Tells n T where
  connectionsInto _ := ⟨hw, .of_none rfl, Nat.lt_of_lt_of_le (e.scopeRank_pos T) (by omega)⟩
  value hcs hc := by
    subst hcs
    have hmem := hg.mem_connectionList.2 (hg.mem_connectionsInto.1 hc).1
    exact ⟨hw, .inScope hq rfl hT, Nat.lt_of_lt_of_le (rank_value_lt hmem T) hm⟩
  expectedType key := by
    have := e.rank_expectedType_lt working n.id key T.context T
    refine ⟨hw, .inContext (Query.context?_of_scope? hq) rfl ?_, by omega⟩
    rw [hT.context]
    rfl
  emptyValue _ := ⟨hw, .of_none rfl, Nat.lt_of_lt_of_le (e.scopeRank_pos T) (by omega)⟩

/-! ## Types -/

variable (hl : e.catalogue.All NodeDefinition.Layered)

include hl

theorem outputType_descends (id : NodeId) (key : String) (C : Context) :
    (e.method (.outputType id key C)).Obeys
      (e.descent (.outputType id key C) (e.rank working (.outputType id key C))) working
      (e.Tells (.outputType id key C)) := by
  have hk : (typeKey C id key).topic ≠ .connections := by simp [typeKey, Key.inContext]
  refine Slot.Obeys.of_within (filesConnections_of_ne hk) fun hnew => ?_
  have hm : e.rank working (.outputType id key C) = _ := if_neg hnew
  rw [hm]
  have hw' := hw.cons hk
  refine Plan.Ends.bind (.query ⟨hw', .of_none rfl, Nat.succ_pos _⟩) fun n _ => ?_
  cases n with
  | none => exact Plan.Within.pure _
  | some n =>
    exact (hl n.module n.type).outputType (typesInto_descends hg hw' rfl (Nat.le_refl _)) key

omit hl in
/-- Besides the node itself being provisional, which it was not, the context stays as it is. -/
theorem deliveredType_descends (id : NodeId) (key : String) (C : Context) :
    (e.method (.deliveredType id key C)).Obeys
      (e.descent (.deliveredType id key C) (e.rank working (.deliveredType id key C))) working
      (e.Tells (.deliveredType id key C)) := by
  simp only [method]
  split
  · trivial
  next hp =>
  have hk : (Key.inContext .deliveredType id C.key key).topic ≠ .connections := by
    simp [Key.inContext]
  refine Slot.Obeys.of_within (filesConnections_of_ne hk) fun _ => ?_
  have hw' := hw.cons hk
  refine Plan.Within.bind (.query ⟨hw', .provisional rfl rfl hp rfl, ?_⟩) fun _ => ?_
  · exact Nat.lt_of_le_of_lt (rank_outputType_le ..) (by simp only [rank]; omega)
  refine Plan.Ends.bind (.query ⟨hw', .of_none rfl, Nat.succ_pos _⟩) fun cs hcs => ?_
  refine Plan.Within.bind (.mapM fun c hc => .query ⟨hw', .provisional rfl rfl hp rfl, ?_⟩)
    fun _ => .pure _
  subst hcs
  obtain ⟨hconn, rfl, -⟩ := hg.mem_connectionsFrom.1 hc
  have hp' : C.nodes.contains c.src.node = false := by
    unfold Context.provisional? at hp
    grind
  have : e.graph.nodesLeft (C.withProvisional c.src.node).nodes.contains <
      e.graph.nodesLeft C.nodes.contains :=
    hg.nodesLeft_lt (fun a ha => by simp_all [Context.withProvisional])
      (hg.ends hconn (.inl rfl)) hp' (by simp [Context.withProvisional])
  simp only [rank]
  omega

omit hg in
theorem expectedType_descends (id : NodeId) (key : String) (C : Context) :
    (e.method (.expectedType id key C)).Obeys
      (e.descent (.expectedType id key C) (e.rank working (.expectedType id key C))) working
      (e.Tells (.expectedType id key C)) := by
  refine Plan.Ends.bind (.query ⟨hw, .of_none rfl, Nat.succ_pos _⟩) fun n _ => ?_
  cases n with
  | none => exact Plan.Within.pure _
  | some n =>
    refine Plan.Within.bind ((hl n.module n.type).inputType ?_ key) fun t => ?_
    · exact ⟨hw, .inContext rfl rfl rfl, by simp only [rank]; omega⟩
    · cases t <;> exact Plan.Within.pure _

/-! ## The search for iterators -/

omit hl

theorem visit_descends (id : NodeId) (S : Scope) (seen : NodeSet) (found : List NodeId) :
    (e.method (.visit id S seen found)).Obeys
      (e.descent (.visit id S seen found) (e.rank working (.visit id S seen found))) working
      (e.Tells (.visit id S seen found)) := by
  change (e.visitPlan id S seen found).Ends _ _ _
  unfold visitPlan
  split
  next => exact .pure ⟨fun _ h => h, fun _ h => .inl h⟩
  next hseen =>
  have hsub : ∀ a ∈ seen, a ∈ seen.insert id := fun a ha => Std.ExtTreeSet.mem_insert.2 (.inr ha)
  refine Plan.Ends.bind (.query ⟨hw, .of_none rfl, Nat.succ_pos _⟩) fun n hn => ?_
  cases n with
  | none => exact .pure ⟨hsub, fun _ h => .inl h⟩
  | some n =>
    have hn := hn.symm
    dsimp only
    split
    · exact .pure ⟨hsub, fun _ h => .inl h⟩
    refine Plan.Ends.bind (Plan.suppliers_within fun _ =>
      ⟨hw, .of_none rfl, Nat.succ_pos _⟩) fun ids _ => ?_
    refine .bind (Plan.Ends.foldlM (I := fun st => (∀ a ∈ seen.insert id, a ∈ st.1) ∧
      ∀ x ∈ st.2, x ∈ found ∨ e.isIterator x ∧ S.isBound x = false)
      ⟨fun _ h => h, fun _ h => .inl h⟩ fun st hst a _ => ?_) fun st hst => .pure ?_
    · have hlt : e.graph.nodesLeft st.1.contains < e.graph.nodesLeft seen.contains :=
        hg.nodesLeft_lt (fun a ha => Std.ExtTreeSet.contains_iff_mem.2
          (hst.1 a (hsub a (Std.ExtTreeSet.contains_iff_mem.1 ha)))) (by simp [hn])
          (Bool.eq_false_iff.2 hseen) (Std.ExtTreeSet.contains_iff_mem.2 (hst.1 id (by simp)))
      refine .mono (.query ⟨hw, .inScope rfl rfl (.refl S), by simp only [rank]; omega⟩)
        fun st' hst' => ⟨fun a ha => hst'.1 a (hst.1 a ha), fun x hx => ?_⟩
      exact (hst'.2 x hx).elim (hst.2 x) .inr
    · refine ⟨fun a ha => hst.1 a (hsub a ha), fun x hx => ?_⟩
      dsimp only at hx
      split at hx
      next hi =>
        rw [Bool.and_eq_true, Bool.not_eq_true'] at hi
        rcases List.mem_append.1 hx with hx | hx
        · exact hst.2 x hx
        · obtain rfl := List.mem_singleton.1 hx
          exact .inr ⟨(isIterator_eq hn).trans hi.1, hi.2⟩
      next => exact hst.2 x hx

/-! ## Values -/

/-- What a collector has bound: iterators that are not bound in its scope. -/
def BindsFresh (e : Engine) (S : Scope) (locals : Locals) : Prop :=
  ∀ x, locals.contains x → e.isIterator x ∧ S.isBound x = false

omit hg hw in
theorem BindsFresh.extends {locals : Locals} (h : e.BindsFresh S locals) :
    e.Extends S (S.child locals) where
  context := rfl
  isBound x hx := by
    rw [Scope.isBound_eq_isSome] at hx ⊢
    rw [Scope.lookup_child]
    cases locals[x]? with
    | none => exact hx
    | some l => rfl
  fresh := by
    by_cases he : locals = ∅
    · exact .inl (he ▸ Scope.child_empty S)
    obtain ⟨x, hx⟩ : ∃ x, locals.contains x := by
      by_contra hn
      refine he (Std.ExtTreeMap.ext_getElem? fun {x} => ?_)
      simp only [not_exists, Std.ExtTreeMap.contains_eq_isSome_getElem?] at hn
      simpa using hn x
    refine .inr ⟨x, (h x hx).1, ?_, (h x hx).2⟩
    rw [Scope.isBound_eq_isSome, Scope.lookup_child]
    rw [Std.ExtTreeMap.contains_eq_isSome_getElem?] at hx
    simp [hx]

theorem collect_descends {k : Key} (hk : k.topic ≠ .connections) (hq : q.scope? = some S)
    (hm : e.scopeRank S + 2 * e.graph.sourcesLeft (k :: working) (valueKey S) < m) (n : Node) :
    (Plan.collect n.id S).Within ((e.descent q m).asks (k :: working)) e.Tells := by
  have hw' := hw.cons hk
  have leaf {q' : Query} (h : q'.context? = none) (hr : e.rank (k :: working) q' = 0) :
      (e.descent q m).asks (k :: working) q' := ⟨hw', .of_none h, by omega⟩
  refine .mono (Plan.collect_ends (E := fun entries => ∀ x ∈ entries, e.isIterator x ∧
    S.isBound x = false) (I := e.BindsFresh S) (R := fun _ => True) ?_ (leaf rfl rfl)
    (fun _ => leaf rfl rfl) (fun entries hentries x hx i hi => ?_) (by simp [BindsFresh])
    fun entries _ _ l hl => ?_) fun _ _ => trivial
  · refine .bind (.query (leaf rfl rfl)) fun n _ => ?_
    cases n with
    | none => exact .pure (by simp)
    | some n =>
      refine .bind (Plan.suppliers_within fun _ => leaf rfl rfl) fun ids _ => ?_
      refine .bind (Plan.Ends.foldlM (I := fun st => ∀ x ∈ st.2, e.isIterator x ∧
        S.isBound x = false) (by simp) fun st hst a _ => ?_) fun st hst => .pure hst
      have := e.rank_visit_lt (k :: working) a st.1 st.2 S
      refine .mono (.query ⟨hw', .inScope hq rfl (.refl S), by omega⟩) fun st' hst' x hx => ?_
      exact (hst'.2 x hx).elim (hst x) id
  · obtain rfl := hg.node_id hi.symm
    refine ⟨fun l hl => ⟨hw', .inScope hq rfl hl.extends, ?_⟩, fun hl _ _ y hy => ?_⟩
    · exact Nat.lt_of_le_of_lt (hl.extends.rank_le hg _) hm
    · rw [Std.ExtTreeMap.contains_insert, Bool.or_eq_true] at hy
      rcases hy with hy | hy
      · rw [beq_iff_eq, Std.LawfulEqCmp.compare_eq_iff_eq] at hy
        exact hy ▸ hentries _ hx
      · exact hl y hy
  · exact Plan.inputValue_within (valuesInto_descends hg hw' hq hl.extends
      (Nat.le_of_lt (Nat.lt_of_le_of_lt (hl.extends.rank_le hg _) hm))) "input"

variable (hf : e.catalogue.All NodeDefinition.Flowing)

include hf

theorem value_descends (id : NodeId) (S : Scope) (key : String) :
    (e.method (.value id S key)).Obeys
      (e.descent (.value id S key) (e.rank working (.value id S key))) working
      (e.Tells (.value id S key)) := by
  have hk : (valueKey S id key).topic ≠ .connections := by simp [valueKey, Key.inScope]
  refine Slot.Obeys.of_within (filesConnections_of_ne hk) fun hnew => ?_
  have hm : e.rank working (.value id S key) = _ := if_neg hnew
  rw [hm]
  have hw' := hw.cons hk
  refine Plan.Ends.bind (.query ⟨hw', .of_none rfl, Nat.succ_pos _⟩) fun n hn => ?_
  cases n with
  | none => exact Plan.Within.pure _
  | some n =>
    obtain rfl := hg.node_id hn.symm
    have hd := hf n.module n.type
    cases hdi : (e.definition n).isIterator with
    | true =>
      exact hd.element hdi ⟨hw', .inScope rfl rfl (.refl S), by simp only [rank]; omega⟩ key
    | false =>
      cases hdc : (e.definition n).isCollector with
      | true =>
        refine Eq.mpr (congrArg _ (hd.collects hdc n S key)) ?_
        exact collect_descends hg hw hk rfl (Nat.lt_succ_self _) n
      | false =>
        exact hd.value hdi hdc
          (valuesInto_descends hg hw' rfl (.refl S) (Nat.le_succ _)) key

theorem elements_descends (n : Node) (S : Scope) :
    (e.method (.elements n S)).Obeys
      (e.descent (.elements n S) (e.rank working (.elements n S))) working
      (e.Tells (.elements n S)) := by
  have hd := hf n.module n.type
  suffices ((e.definition n).elements n S).Within _ e.Tells from this.mono fun _ _ _ => trivial
  cases hi : (e.definition n).isIterator with
  | true =>
    refine Eq.mpr (congrArg _ (hd.elements hi n S)) ?_
    exact .map (Plan.inputValue_within (valuesInto_descends hg hw rfl (.refl S) (Nat.le_refl _))
      "input") _
  | false =>
    refine Eq.mpr (congrArg _ (hd.still hi n S)) ?_
    exact .pure _

end Methods

end Engine

end Dataflow
