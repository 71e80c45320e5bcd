import Dataflow.Proofs.Engine.Depth
import Dataflow.Proofs.Engine.Log

/-! In a graph without a cycle no question comes up again while it is being worked out.

Values and produced types rest on what lies strictly upstream, and delivered types on what is
demanded strictly downstream (`Graph.ComesUp`). So each answer in progress is about another node
(`onward_once`). -/

namespace Dataflow

open Memo (Table Key)
open Relation (TransGen ReflTransGen)

/-- What may come up while the answer under a key is being worked out. Types come up for values, and
produced types for delivered ones, but never the other way round. -/
def Graph.ComesUp (g : Graph) (k : Key) : Query → Prop
  | .value id _ _ | .visit id _ _ _ => k.topic = .value ∧ TransGen g.Feeds id k.node
  | .elements n _ => k.topic = .value ∧ TransGen g.Feeds n.id k.node
  | .deliveredType id _ _ | .expectedType id _ _ =>
    k.topic = .value ∨ k.topic = .deliveredType ∧ TransGen g.Feeds k.node id
  | .outputType id _ _ => k.topic = .value ∨ k.topic = .deliveredType ∨
    k.topic = .outputType ∧ TransGen g.Feeds id k.node
  | .connectionsInto _ _ | .connectionsFrom _ _ => k.topic ≠ .connections
  | .ports _ => False
  | _ => True

namespace Engine

variable {e : Engine} {working : List Key} {q q' : Query} {k : Key}

/-- What answers say about the graph; and a search for iterators finds them upstream. -/
def Locates (e : Engine) : (q : Query) → q.Answer → Prop
  | .node id, n => n = e.graph.node? id
  | .connectionsInto id key, cs => cs = e.graph.connectionsInto id key
  | .connectionsFrom id key, cs => cs = e.graph.connectionsFrom id key
  | .visit id _ _ found, st => ∀ x ∈ st.2, x ∈ found ∨ ReflTransGen e.graph.Feeds x id
  | _, _ => True

/-- Only what may come up for all keys in progress is asked. -/
def onward (e : Engine) : Contract where
  asks working q := ∀ k ∈ working, e.graph.ComesUp k q
  good := e.Locates
  filed := e.FilesConnections

/-- What may come up for one question and then for another may come up for the key of the first. -/
theorem asks_cons (h : e.onward.asks working q) (hk : e.graph.ComesUp k q')
    (hq : ∀ k, e.graph.ComesUp k q → e.graph.ComesUp k q') : e.onward.asks (k :: working) q' :=
  List.forall_mem_cons.2 ⟨hk, fun k hw => hq k (h k hw)⟩

/-- Without a cycle, what comes up is filed under another key. -/
theorem onward_once (ha : e.graph.Acyclic) : e.Once e.onward := by
  intro working q k hq hk hw
  have hq := hq k hw
  have hk := e.method_key? hk
  cases q <;> cases hk <;> simp_all [Graph.ComesUp, Key.inScope, Key.inContext, ha _]

section Methods

variable (hg : e.graph.WellFormed) {id : NodeId} {key : String} {n : Node}

include hg

/-! ## Types -/

variable {C : Context}

theorem typesInto_onward (h : e.onward.asks working (.outputType n.id key C)) :
    TypesInto (e.onward.asks (typeKey C n.id key :: working)) e.Locates n C where
  node _ := asks_cons h trivial fun _ _ => trivial
  connectionsInto _ := by
    refine asks_cons h (by simp [Graph.ComesUp, typeKey, Key.inContext]) fun k hk => ?_
    rcases hk with hk | hk | ⟨hk, -⟩ <;> simp [Graph.ComesUp, hk]
  outputType hcs hc := by
    subst hcs
    have hfeeds := hg.feeds_of_mem_connectionsInto hc
    refine asks_cons h (.inr (.inr ⟨rfl, .single hfeeds⟩)) fun k hk => ?_
    exact hk.imp_right fun hk => hk.imp_right (And.imp_right (.head hfeeds))

variable (hl : e.catalogue.All NodeDefinition.Layered)

include hl

theorem outputType_onward (h : e.onward.asks working (.outputType id key C)) :
    (e.method (.outputType id key C)).Obeys e.onward working
      (e.Locates (.outputType id key C)) := by
  have hk : (typeKey C id key).topic ≠ .connections := by simp [typeKey, Key.inContext]
  refine Slot.Obeys.of_within (filesConnections_of_ne hk) fun _ => ?_
  refine Plan.Ends.bind (.query (asks_cons h trivial fun _ _ => trivial)) fun n hn => ?_
  cases n with
  | none => exact Plan.Within.pure _
  | some n =>
    obtain rfl := hg.node_id hn.symm
    exact (hl n.module n.type).outputType (typesInto_onward hg h) key

omit hl in
theorem deliveredType_onward (h : e.onward.asks working (.deliveredType id key C)) :
    (e.method (.deliveredType id key C)).Obeys e.onward working
      (e.Locates (.deliveredType id key C)) := by
  simp only [method]
  split
  · trivial
  have hk : (Key.inContext .deliveredType id C.key key).topic ≠ .connections := by
    simp [Key.inContext]
  refine Slot.Obeys.of_within (filesConnections_of_ne hk) fun _ => ?_
  refine Plan.Within.bind (.query (asks_cons h (.inr (.inl rfl)) fun k hk => ?_)) fun _ => ?_
  · exact hk.imp_right fun hk => .inl hk.1
  refine Plan.Ends.bind (.query (asks_cons h hk fun k hk => ?_)) fun cs hcs => ?_
  · rcases hk with hk | ⟨hk, -⟩ <;> simp [Graph.ComesUp, hk]
  subst hcs
  refine Plan.Within.bind (.mapM fun c hc => .query (asks_cons h ?_ fun k hk => ?_))
    fun _ => .pure _
  · exact .inr ⟨rfl, .single (hg.feeds_of_mem_connectionsFrom hc)⟩
  · exact hk.imp_right (And.imp_right (.tail · (hg.feeds_of_mem_connectionsFrom hc)))

theorem expectedType_onward (h : e.onward.asks working (.expectedType id key C)) :
    (e.method (.expectedType id key C)).Obeys e.onward working
      (e.Locates (.expectedType id key C)) := by
  refine Plan.Ends.bind (.query fun _ _ => trivial) fun n hn => ?_
  cases n with
  | none => exact Plan.Within.pure _
  | some n =>
    obtain rfl := hg.node_id hn.symm
    refine Plan.Within.bind ((hl n.module n.type).inputType (fun k hw => h k hw) key) fun t => ?_
    cases t <;> exact Plan.Within.pure _

/-! ## The search for iterators -/

omit hl

variable {S : Scope}

theorem visit_onward {seen : NodeSet} {found : List NodeId}
    (h : e.onward.asks working (.visit id S seen found)) :
    (e.method (.visit id S seen found)).Obeys e.onward working
      (e.Locates (.visit id S seen found)) := by
  have hinto (key : String) : e.onward.asks working (.connectionsInto id key) :=
    fun k hw => by simp [Graph.ComesUp, (h k hw).1]
  change (e.visitPlan id S seen found).Ends _ _ _
  unfold visitPlan
  split
  next => exact .pure fun _ h => .inl h
  next =>
  refine .bind (.query fun _ _ => trivial) fun n hn => ?_
  cases n with
  | none => exact .pure fun _ h => .inl h
  | some n =>
    have hn := hn.symm
    dsimp only
    split
    · exact .pure fun _ h => .inl h
    refine .bind (suppliers_ends (fun h => h) hn (hg.node_id hn) hinto) fun ids hids => ?_
    refine .bind (Plan.Ends.foldlM (I := fun st =>
      ∀ x ∈ st.2, x ∈ found ∨ ReflTransGen e.graph.Feeds x id) (fun _ h => .inl h)
      fun st hst a ha => ?_) fun st hst => .pure fun x hx => ?_
    · have hfeeds := hg.feeds_of_supplies ((hids a).1 ha)
      refine .mono (.query fun k hw => ⟨(h k hw).1, .head hfeeds (h k hw).2⟩)
        fun st' hst' x hx => ?_
      exact (hst' x hx).elim (hst x) fun hpath => .inr (hpath.tail hfeeds)
    · dsimp only at hx
      split at hx
      next =>
        rcases List.mem_append.1 hx with hx | hx
        · exact hst x hx
        · obtain rfl := List.mem_singleton.1 hx
          exact .inr .refl
      next => exact hst x hx

/-! ## Values -/

omit hg in
/-- The answers in progress are values of what lies downstream of a node, or of the node itself. -/
def Beyond (e : Engine) (id : NodeId) (working : List Key) : Prop :=
  ∀ k ∈ working, k.topic = .value ∧ ReflTransGen e.graph.Feeds id k.node

theorem valuesInto_onward (h : e.Beyond n.id working) :
    ValuesInto (e.onward.asks working) e.Locates n S where
  connectionsInto _ k hw := by simp [Graph.ComesUp, (h k hw).1]
  value hcs hc k hw := by
    subst hcs
    exact ⟨(h k hw).1, .head' (hg.feeds_of_mem_connectionsInto hc) (h k hw).2⟩
  expectedType _ k hw := .inl (h k hw).1
  emptyValue _ _ _ := trivial

theorem collect_onward (hn : e.graph.node? n.id = some n) (h : e.Beyond n.id working) :
    (Plan.collect n.id S).Within (e.onward.asks working) e.Locates := by
  refine .mono (Plan.collect_ends
    (E := fun entries => ∀ x ∈ entries, TransGen e.graph.Feeds x n.id) (I := fun _ => True)
    (R := fun _ => True) ?_ (fun _ _ => trivial) (fun _ _ _ => trivial)
    (fun entries hentries x hx i hi => ⟨fun l _ k hw => ?_, fun _ _ _ => trivial⟩) trivial
    fun entries _ _ l _ => Plan.inputValue_within (valuesInto_onward hg h) "input")
    fun _ _ => trivial
  · refine .bind (.query fun _ _ => trivial) fun m hm => ?_
    obtain rfl : m = some n := hm.trans hn
    refine .bind (suppliers_ends (fun h => h) hn rfl
      (valuesInto_onward (S := S) hg h).connectionsInto) fun ids hids => ?_
    refine .bind (Plan.Ends.foldlM (I := fun st => ∀ x ∈ st.2, TransGen e.graph.Feeds x n.id)
      (by simp) fun st hst a ha => ?_) fun st hst => .pure hst
    have hfeeds := hg.feeds_of_supplies ((hids a).1 ha)
    refine .mono (.query fun k hw => ⟨(h k hw).1, .head' hfeeds (h k hw).2⟩) fun st' hst' x hx => ?_
    exact (hst' x hx).elim (hst x) fun hpath => .tail' hpath hfeeds
  · obtain rfl := hg.node_id hi.symm
    exact ⟨(h k hw).1, (hentries _ hx).trans_left (h k hw).2⟩

variable (hf : e.catalogue.All NodeDefinition.Flowing)

include hf

theorem value_onward (h : e.onward.asks working (.value id S key)) :
    (e.method (.value id S key)).Obeys e.onward working (e.Locates (.value id S key)) := by
  have hk : (valueKey S id key).topic ≠ .connections := by simp [valueKey, Key.inScope]
  refine Slot.Obeys.of_within (filesConnections_of_ne hk) fun _ => ?_
  have hbeyond : e.Beyond id (valueKey S id key :: working) :=
    List.forall_mem_cons.2 ⟨⟨rfl, .refl⟩, fun k hw => (h k hw).imp_right TransGen.to_reflTransGen⟩
  refine Plan.Ends.bind (.query fun _ _ => trivial) fun n hn => ?_
  cases n with
  | none => exact Plan.Within.pure _
  | some n =>
    have hn := hn.symm
    obtain rfl := hg.node_id hn
    have hd := hf n.module n.type
    cases hdi : (e.definition n).isIterator with
    | true => exact hd.element hdi (fun _ _ => trivial) key
    | false =>
      cases hdc : (e.definition n).isCollector with
      | true =>
        refine Eq.mpr (congrArg _ (hd.collects hdc n S key)) ?_
        exact collect_onward hg hn hbeyond
      | false => exact hd.value hdi hdc (valuesInto_onward hg hbeyond) key

theorem elements_onward (h : e.onward.asks working (.elements n S)) :
    (e.method (.elements n S)).Obeys e.onward working (e.Locates (.elements n S)) := by
  have hd := hf n.module n.type
  suffices ((e.definition n).elements n S).Within (e.onward.asks working) e.Locates from
    this.mono fun _ _ _ => trivial
  cases hi : (e.definition n).isIterator with
  | true =>
    refine Eq.mpr (congrArg _ (hd.elements hi n S)) ?_
    have hbeyond : e.Beyond n.id working :=
      fun k hw => (h k hw).imp_right TransGen.to_reflTransGen
    exact .map (Plan.inputValue_within (valuesInto_onward hg hbeyond) "input") _
  | false =>
    refine Eq.mpr (congrArg _ (hd.still hi n S)) ?_
    exact .pure _

end Methods

variable {α : Type} {t : Table}

section Answers

variable (hg : e.graph.WellFormed) (hl : e.catalogue.All NodeDefinition.Layered)
  (hf : e.catalogue.All NodeDefinition.Flowing)

include hg hl hf

theorem keeps_onward : e.Keeps e.onward := by
  intro working q h
  cases q with
  | node id => rfl
  | bound id S =>
    simp only [method]
    split <;> trivial
  | connectionsInto id key => exact connectionsInto_obeys (fun _ => Iff.rfl) h id key
  | connectionsFrom id key => exact connectionsFrom_obeys (fun _ => Iff.rfl) h id key
  | ports id =>
    simp only [method]
    split
    · trivial
    · have hk : (Key.inScope .ports id [] "").topic ≠ .connections := by simp [Key.inScope]
      exact Slot.Obeys.of_within (filesConnections_of_ne hk) fun _ =>
        portsPlan_within fun key => asks_cons h hk fun _ => False.elim
  | value id S key => exact value_onward hg hf h
  | outputType id key C => exact outputType_onward hg hl h
  | deliveredType id key C => exact deliveredType_onward hg h
  | expectedType id key C => exact expectedType_onward hg hl h
  | emptyValue type => trivial
  | visit id S seen found => exact visit_onward hg h
  | elements n S => exact elements_onward hg hf h
  | limit => trivial

/-- Whatever a plan asks, nothing is worked out that is remembered, nothing is worked out twice, and
all that is worked out is remembered: by `Keeps.books`, for every question that the plan asks. -/
theorem perform_books (ha : e.graph.Acyclic) (p : Plan α) (ht : Kept e.onward t) :
    t.Books [] (e.computations p t) (e.perform p t).2 := by
  have hk := keeps_onward hg hl hf
  have nothing (q : Query) : e.onward.asks [] q := fun _ h => nomatch h
  refine run_books (P := fun _ => True) (Q := fun _ => True) (fun {q} {t} {a} {t'} _ ht hr => ?_)
    (Plan.Within.all (fun _ => trivial) p) ht (run_depth hg hl hf p ht.1)
  exact ⟨hk.books (onward_once ha) (nothing q) ht hr, hk.kept (nothing q) ht hr⟩

theorem perform_kept (p : Plan α) (ht : Kept e.onward t) : Kept e.onward (e.perform p t).2 :=
  ⟨perform_files hg hl hf p ht.1, (perform_retains e p t).fits ht.2⟩

end Answers

end Engine
end Dataflow
