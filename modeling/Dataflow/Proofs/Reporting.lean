import Dataflow.Proofs.Engine.Search
import Dataflow.Proofs.Engine.Store
import Dataflow.Proofs.Graph.Sorting
import Dataflow.Proofs.Typing

/-! No mismatch is lost in a check of all types.

`Typing.checkNode` keeps back the mismatches of a node that a mismatch comes into. But what delivers
a mismatch is accounted for (`Typing.Accounts`) from when it was checked: something is found there
or upstream of it. That carries over from one node of the order to the next by
`Typing.checkNode_onward`.

The kinds of nodes may ask for anything, and then the delivered type at an output need not always be
the same. So mismatches are those that the check itself is told of (`Engine.told`). -/

namespace Dataflow

open Memo (Table)

/-! ## What a plan is told -/

/-- If the question is for the delivered type at a key and at the root, its answer. -/
def Query.deliveredAt? (id : NodeId) (key : String) : (q : Query) → q.Answer → Option ValueType
  | .deliveredType id' key' context, type =>
    if id' = id ∧ key' = key ∧ context = .root then some type else none
  | _, _ => none

namespace Engine

variable {α β : Type} {e : Engine} {t : Table} {id : NodeId} {key : String}

/-- The delivered type at a key that a plan is told when it first asks for it. -/
def told (e : Engine) (id : NodeId) (key : String) : Plan α → Table → Option ValueType
  | .done _, _ => none
  | .ask q next, t =>
    (q.deliveredAt? id key (e.ask q t).1).or (e.told id key (next (e.ask q t).1) (e.ask q t).2)

theorem perform_bind (p : Plan α) (f : α → Plan β) (t : Table) :
    e.perform (p >>= f) t = e.perform (f (e.perform p t).1) (e.perform p t).2 := by
  simp only [perform, Plan.run_bind]
  rfl

theorem told_bind (p : Plan α) (f : α → Plan β) (t : Table) : e.told id key (p >>= f) t =
    (e.told id key p t).or (e.told id key (f (e.perform p t).1) (e.perform p t).2) := by
  induction p generalizing t with
  | done a => rfl
  | ask q next ih =>
    change (Option.or _ (e.told id key (next _ >>= f) _)) = (Option.or (Option.or _ _) _)
    rw [ih, Option.or_assoc]
    rfl

/-- What a plan is told is answered after some other plan. -/
theorem told_eq_ask {p : Plan α} {type : ValueType} (h : e.told id key p t = some type) :
    ∃ (γ : Type) (earlier : Plan γ),
      (e.ask (.deliveredType id key .root) (e.perform earlier t).2).1 = type := by
  suffices ∀ {γ : Type} (earlier : Plan γ), e.told id key p (e.perform earlier t).2 = some type →
      ∃ (γ : Type) (earlier : Plan γ),
        (e.ask (.deliveredType id key .root) (e.perform earlier t).2).1 = type from
    this (pure ()) h
  clear h
  induction p with
  | done a => exact fun _ h => by cases h
  | ask q next ih =>
    intro γ earlier h
    rcases Option.or_eq_some_iff.1 h with hq | ⟨-, hnext⟩
    · cases q with
      | deliveredType id' key' context =>
        obtain ⟨⟨rfl, rfl, rfl⟩, htype⟩ := Option.ite_none_right_eq_some.1 hq
        exact ⟨γ, earlier, Option.some.inj htype⟩
      | _ => cases hq
    · refine ih (e.ask q (e.perform earlier t).2).1 (earlier >>= fun _ => Plan.query q) ?_
      rw [perform_bind]
      exact hnext

/-! ## Plans that are told right answers about the graph -/

/-- The answer is right if it is about the graph. -/
abbrev RightOfStore (e : Engine) (q : Query) (a : q.Answer) : Prop :=
  q.AboutStore → e.Right .last q a

/-- Answers about the graph are right, now and later. -/
abbrev SoundStore (e : Engine) (t : Table) : Prop := e.Sound .last Query.AboutStore t

theorem SoundStore.perform (h : e.SoundStore t) (p : Plan α) : e.SoundStore (e.perform p t).2 :=
  storeDomain.perform_sound_of_apart store_apart h

theorem SoundStore.ends (h : e.SoundStore t) {Q : α → Prop} {p : Plan α}
    (hp : p.Ends (fun _ => True) e.RightOfStore Q) : Q (e.perform p t).1 :=
  storeDomain.perform_ends store_apart hp h

theorem answers_rightOfStore : e.graph.Answers e.RightOfStore := answers_right.about_store

/-- The question is not for the delivered type at the key. -/
def Elsewhere (id : NodeId) (key : String) (q : Query) : Prop :=
  ∀ a, q.deliveredAt? id key a = none

theorem elsewhere_deliveredType {a : NodeId} (h : a ≠ id) (key' : String) (context : Context) :
    Elsewhere id key (.deliveredType a key' context) :=
  fun _ => if_neg fun heq => h heq.1

theorem told_eq_none (ht : e.SoundStore t) {p : Plan α}
    (hp : p.Within (Elsewhere id key) e.RightOfStore) : e.told id key p t = none := by
  induction p generalizing t with
  | done a => rfl
  | ask q next ih =>
    have hask : e.SoundStore (e.ask q t).2 := by
      have h := ht.perform (Plan.query q)
      rwa [perform, Plan.run_query] at h
    rw [told, hp.1, Option.none_or]
    exact ih _ hask (hp.2 _ fun hq => storeDomain.ask_right hq ht)

end Engine

namespace Typing

open Relation (ReflTransGen)

variable {e : Engine} {c : Catalogue} {T T' T'' : Typing} {n : Node} {id : NodeId} {t : Table}

/-! ## What is reported -/

/-- Something is found at a node or upstream of it. -/
def Reports (e : Engine) (T : Typing) (id : NodeId) : Prop :=
  ∃ d ∈ T.diagnostics, d.node ∈ e.graph.upstream [id]

/-- For each node that delivers a mismatch there is a report. -/
def Accounts (e : Engine) (T : Typing) : Prop := ∀ id, T.isMismatch id → T.Reports e id

/-- A check has gone on: what was found stays, and what delivers a mismatch is accounted for. -/
structure Onward (e : Engine) (T T' : Typing) : Prop where
  diagnostics : ∀ d ∈ T.diagnostics, d ∈ T'.diagnostics
  accounts : T'.Accounts e

theorem Reports.mono (h : T.Reports e id) (hd : ∀ d ∈ T.diagnostics, d ∈ T'.diagnostics) :
    T'.Reports e id := by
  obtain ⟨d, hmem, hid⟩ := h
  exact ⟨d, hd d hmem, hid⟩

theorem mem_diagnostics_add {d : Diagnostic} (hd : d ∈ T.diagnostics) (n : Node)
    (findings : List Finding) (type : ValueType) : d ∈ (T.add n findings type).diagnostics :=
  List.mem_append_left _ hd

theorem exists_mismatch_of_primary {types : List (String × ValueType)}
    (h : (primary types).isMismatch) : ∃ kt ∈ types, kt.2.isMismatch := by
  by_contra hnone
  simp only [not_exists, not_and, Bool.not_eq_true] at hnone
  rw [primary_not_mismatch hnone] at h
  cases h

theorem Onward.trans (h : Onward e T T') (h' : Onward e T' T'') : Onward e T T'' :=
  ⟨fun d hd => h'.diagnostics d (h.diagnostics d hd), h'.accounts⟩

theorem Onward.refl (hT : T.Accounts e) : Onward e T T := ⟨fun _ h => h, hT⟩

theorem Onward.add {findings : List Finding} {type : ValueType} (hT : T.Accounts e)
    (h : type.isMismatch → (T.add n findings type).Reports e n.id) :
    Onward e T (T.add n findings type) := by
  refine ⟨fun d hd => mem_diagnostics_add hd .., fun id hid => ?_⟩
  rw [isMismatch_add] at hid
  split at hid
  next heq => exact heq ▸ h hid
  next => exact (hT id hid).mono fun d hd => mem_diagnostics_add hd ..

/-- The findings at the outputs of a node, if no mismatch comes in from one of the suppliers. -/
abbrev outputs (T : Typing) (ids : List NodeId) (types : List (String × ValueType)) :
    List Finding :=
  (types.filter fun kt => kt.2.isMismatch && !ids.any T.isMismatch).map
    fun kt => .output kt.1 kt.2

/-- The check of a node of a known kind. -/
theorem checkNode_known (hk : c.contains n.module n.type) : checkNode c T n = (do
    let ids ← Plan.suppliers n
    let types ← delivered n
    let wires ← n.destinations.mapM (wireFindings n)
    return T.add n (T.outputs ids types ++ wires.flatten) (primary types)) := by
  rw [checkNode, hk]
  rfl

variable (hg : e.graph.WellFormed)

include hg

/-- What is reported for a node is reported for all that it feeds. -/
theorem Reports.downstream {a : NodeId} (h : T.Reports e a) (hp : ReflTransGen e.graph.Feeds a id) :
    T.Reports e id := by
  obtain ⟨d, hd, hid⟩ := h
  obtain ⟨_, hs, hpath⟩ := hg.mem_upstream.1 hid
  obtain rfl := List.mem_singleton.1 hs
  exact ⟨d, hd, hg.mem_upstream.2 ⟨id, List.mem_singleton_self id, hpath.trans hp⟩⟩

theorem Reports.of_finding {findings : List Finding} {f : Finding} (hf : f ∈ findings)
    (type : ValueType) : (T.add n findings type).Reports e n.id :=
  ⟨⟨n.id, n.label, f⟩, List.mem_append_right _ (List.mem_map_of_mem hf),
    hg.mem_upstream.2 ⟨n.id, List.mem_singleton_self _, .refl⟩⟩

/-- A mismatch at an output is reported, or else one that comes in was. -/
theorem reports_of_mismatch (hT : T.Accounts e) {ids : List NodeId}
    (hids : ∀ a, a ∈ ids ↔ e.graph.Supplies a n.id) {types : List (String × ValueType)}
    (hm : ∃ kt ∈ types, kt.2.isMismatch) (wires : List Finding) (type : ValueType) :
    (T.add n (T.outputs ids types ++ wires) type).Reports e n.id := by
  obtain ⟨kt, hkt, hm⟩ := hm
  cases hin : ids.any T.isMismatch with
  | true =>
    obtain ⟨a, ha, hma⟩ := List.any_eq_true.1 hin
    have hfeeds := hg.feeds_of_supplies ((hids a).1 ha)
    exact ((hT a hma).downstream hg (.single hfeeds)).mono fun d hd => mem_diagnostics_add hd ..
  | false =>
    refine .of_finding hg (f := .output kt.1 kt.2) (List.mem_append_left _ ?_) _
    exact List.mem_map.2 ⟨kt, List.mem_filter.2 ⟨hkt, by rw [hm, hin]; rfl⟩, rfl⟩

/-! ## One node after the other -/

/-- A node is accounted for when it is checked. If no mismatch comes into it, then its own are
reported; and if one does, then what it comes from is accounted for. -/
theorem checkNode_onward (hT : T.Accounts e) (hn : e.graph.node? n.id = some n) :
    (checkNode c T n).Ends (fun _ => True) e.RightOfStore fun T' =>
      Onward e T T' ∧ (¬c.contains n.module n.type → T'.Reports e n.id) := by
  by_cases hk : c.contains n.module n.type
  · rw [checkNode_known hk]
    refine .bind (Engine.suppliers_ends Engine.answers_rightOfStore.connectionsInto hn rfl
      fun _ => trivial) fun ids hids => ?_
    refine .bind (Plan.Within.all (fun _ => trivial) _) fun types _ => ?_
    refine .bind (Plan.Within.all (fun _ => trivial) _) fun wires _ => .pure ?_
    exact ⟨.add hT fun hm => reports_of_mismatch hg hT hids (exists_mismatch_of_primary hm) _ _,
      fun hunknown => absurd hk hunknown⟩
  · unfold checkNode
    rw [if_pos (by simpa using hk)]
    have hfound (type : ValueType) := Reports.of_finding (T := T) (n := n) hg
      (List.mem_singleton_self (.unknownType n.module n.type)) type
    exact .pure ⟨.add hT fun _ => hfound _, fun _ => hfound _⟩

theorem checkAll_onward (hT : T.Accounts e) (ids : List NodeId) :
    (checkAll c T ids).Ends (fun _ => True) e.RightOfStore fun T' => Onward e T T' ∧
      ∀ id ∈ ids, ∀ n, e.graph.node? id = some n → ¬c.contains n.module n.type →
        T'.Reports e id := by
  induction ids generalizing T with
  | nil => exact .pure ⟨.refl hT, List.forall_mem_nil _⟩
  | cons id ids ih =>
    refine .bind (.query (q := .node id) trivial) fun n hn => ?_
    have hn := (Engine.answers_rightOfStore.node hn).symm
    cases n with
    | none =>
      refine (ih hT).mono fun T' ⟨ho, hids⟩ => ⟨ho, List.forall_mem_cons.2 ⟨fun m hm => ?_, hids⟩⟩
      cases hn.symm.trans hm
    | some n =>
      obtain rfl := hg.node_id hn
      refine .bind (checkNode_onward hg hT hn) fun T₁ ⟨ho, hunknown⟩ => ?_
      refine (ih ho.accounts).mono fun T' ⟨ho', hids⟩ =>
        ⟨ho.trans ho', List.forall_mem_cons.2 ⟨fun m hm hk => ?_, hids⟩⟩
      cases hn.symm.trans hm
      exact (hunknown hk).mono ho'.diagnostics

/-! ## Mismatches that the check is told of -/

omit hg in
/-- The check is told of the outputs of a node one by one. -/
theorem delivered_told (e : Engine) (t : Table) {s : PortSpec} (hs : s ∈ n.sources) :
    ∃ kt ∈ (e.perform (delivered n) t).1, e.told n.id s.key (delivered n) t = some kt.2 := by
  unfold delivered
  generalize n.sources = sources at hs
  induction sources generalizing t with
  | nil => cases hs
  | cons o sources ih =>
    simp only [List.mapM_cons, Engine.perform_bind, Engine.told_bind]
    by_cases hkey : s.key = o.key
    · refine ⟨_, List.mem_cons_self, ?_⟩
      rw [hkey]
      change ((Option.or (if n.id = n.id ∧ o.key = o.key ∧ _ then _ else _) _).or _).or _ = _
      rw [if_pos ⟨rfl, rfl, rfl⟩]
      rfl
    · obtain ⟨kt, hkt, htold⟩ := ih (e.ask (.deliveredType n.id o.key .root) t).2
        ((List.mem_cons.1 hs).resolve_left fun h => hkey (congrArg PortSpec.key h))
      refine ⟨kt, List.mem_cons_of_mem _ hkt, ?_⟩
      change ((Option.or (if n.id = n.id ∧ o.key = s.key ∧ _ then _ else _) _).or _).or _ = _
      rw [if_neg fun h => hkey h.2.1.symm]
      exact (Option.or_none ..).trans htold

omit hg in
/-- The questions that a node asks about what comes in are not for its own outputs. -/
theorem suppliers_elsewhere {key : String} (m : Node) :
    (Plan.suppliers m).Within (Engine.Elsewhere id key) e.RightOfStore :=
  .bind (.mapM fun _ _ => .query fun _ => rfl) fun _ => .pure _

/-- When a node is checked the check is told of each of its outputs, and a mismatch there is
accounted for. -/
theorem checkNode_told (ht : e.SoundStore t) (hT : T.Accounts e) (hn : e.graph.node? n.id = some n)
    (hk : c.contains n.module n.type) {s : PortSpec} (hs : s ∈ n.sources) :
    ∃ type, e.told n.id s.key (checkNode c T n) t = some type ∧
      (type.isMismatch → (e.perform (checkNode c T n) t).1.Reports e n.id) := by
  rw [checkNode_known hk]
  have hsuppliers := ht.ends (Engine.suppliers_ends (P := fun _ => True)
    Engine.answers_rightOfStore.connectionsInto hn rfl fun _ => trivial)
  have hnone : e.told n.id s.key (Plan.suppliers n) t = none :=
    Engine.told_eq_none ht (suppliers_elsewhere n)
  obtain ⟨kt, hkt, htold⟩ := delivered_told e (e.perform (Plan.suppliers n) t).2 hs
  refine ⟨kt.2, ?_, fun hm => ?_⟩
  · rw [Engine.told_bind, hnone, Option.none_or, Engine.told_bind, htold]
    rfl
  · rw [Engine.perform_bind, Engine.perform_bind, Engine.perform_bind]
    exact reports_of_mismatch hg hT hsuppliers ⟨kt, hkt, hm⟩ _ _

/-- The check of a node that another one does not feed says nothing of the outputs of that other
one. -/
theorem checkNode_elsewhere {key : String} (hne : n.id ≠ id) (hfeeds : ¬e.graph.Feeds id n.id) :
    (checkNode c T n).Within (Engine.Elsewhere id key) e.RightOfStore := by
  by_cases hk : c.contains n.module n.type
  · rw [checkNode_known hk]
    refine .bind (suppliers_elsewhere n) fun _ => .bind (.mapM fun s _ => .bind (.query ?_)
      fun _ => .pure _) fun _ => .bind (.mapM fun s _ => ?_) fun _ => .pure _
    · exact Engine.elsewhere_deliveredType hne _ _
    · refine Plan.Ends.bind (.query fun _ => rfl) fun cs hcs => ?_
      obtain rfl := Engine.answers_rightOfStore.connectionsInto hcs
      refine Plan.Within.bind (.mapM fun conn hconn => ?_) fun _ => .pure _
      have hne' : conn.src.node ≠ id := by
        rintro rfl
        exact hfeeds (hg.feeds_of_mem_connectionsInto (List.mem_filter.1 hconn).1)
      exact Plan.Within.bind (.query (Engine.elsewhere_deliveredType hne' _ _)) fun _ =>
        .bind (.query fun _ => rfl) fun _ => .pure _
  · unfold checkNode
    rw [if_pos (by simpa using hk)]
    exact .pure _

/-- Where no node is checked before one that feeds it, the check is told of each output of each node
of a known kind, and accounts for the mismatches that it is told of first. -/
theorem checkAll_told (hk : c.contains n.module n.type) (hn : e.graph.node? n.id = some n)
    {s : PortSpec} (hs : s ∈ n.sources) {ids : List NodeId}
    (hids : ids.Pairwise fun a b => a ≠ b ∧ ¬e.graph.Feeds b a) (hmem : n.id ∈ ids)
    (ht : e.SoundStore t) (hT : T.Accounts e) :
    ∃ type, e.told n.id s.key (checkAll c T ids) t = some type ∧
      (type.isMismatch → (e.perform (checkAll c T ids) t).1.Reports e n.id) := by
  induction ids generalizing T t with
  | nil => cases hmem
  | cons id ids ih =>
    obtain ⟨hid, hrest⟩ := List.pairwise_cons.1 hids
    have hquery : e.told n.id s.key (Plan.query (.node id)) t = none :=
      Engine.told_eq_none ht (.query fun _ => rfl)
    have hnode : (e.perform (Plan.query (.node id)) t).1 = e.graph.node? id :=
      ht.ends (.mono (.query (P := fun _ => True) trivial)
        fun _ => Engine.answers_rightOfStore.node)
    have ht' := ht.perform (Plan.query (.node id))
    rw [checkAll, Plan.node?, Engine.told_bind, Engine.perform_bind, hquery, Option.none_or, hnode]
    cases hm : e.graph.node? id with
    | none =>
      refine ih hrest ((List.mem_cons.1 hmem).resolve_left fun h => ?_) ht' hT
      rw [h, hm] at hn
      cases hn
    | some m =>
      obtain rfl := hg.node_id hm
      simp only [Engine.told_bind, Engine.perform_bind]
      have honward := ht'.ends (checkNode_onward hg (c := c) hT hm)
      have ht'' := ht'.perform (checkNode c T m)
      by_cases heq : m.id = n.id
      · obtain rfl : m = n := Option.some.inj (hm.symm.trans (heq ▸ hn))
        obtain ⟨type, htold, hreports⟩ := checkNode_told hg ht' hT hm hk hs
        refine ⟨type, by rw [htold]; rfl, fun hmis => (hreports hmis).mono ?_⟩
        exact (ht''.ends (checkAll_onward hg honward.1.accounts ids)).1.diagnostics
      · have hlater := (List.mem_cons.1 hmem).resolve_left (Ne.symm heq)
        rw [Engine.told_eq_none ht' (checkNode_elsewhere hg heq (hid _ hlater).2), Option.none_or]
        exact ih hrest hlater ht'' honward.1.accounts

/-- Where the nodes can be put in an order, a check accounts for every node of an unknown kind, is
told of every output of the others, and accounts for the mismatches that it is told of first. -/
theorem check_reports {order : List NodeId} (ho : e.graph.topologicalOrder = .ok order)
    (ht : e.SoundStore t) (hn : e.graph.node? n.id = some n) :
    (¬c.contains n.module n.type → (e.perform (check c e.graph) t).1.Reports e n.id) ∧
      (c.contains n.module n.type → ∀ s ∈ n.sources, ∃ type,
        e.told n.id s.key (check c e.graph) t = some type ∧
          (type.isMismatch → (e.perform (check c e.graph) t).1.Reports e n.id)) := by
  obtain ⟨hnodup, -, hedges⟩ := Graph.topologicalOrder_ok ho
  have hids : order.Pairwise fun a b => a ≠ b ∧ ¬e.graph.Feeds b a := by
    refine List.pairwise_iff_getElem.2 fun i j hi hj hij => ⟨fun heq => ?_, fun hfeeds => ?_⟩
    · exact Nat.ne_of_lt hij (hnodup.getElem_inj_iff.1 heq)
    · have hlt := hedges _ _ (Graph.leads_edges ▸ hfeeds)
      rw [hnodup.idxOf_getElem, hnodup.idxOf_getElem] at hlt
      exact Nat.lt_asymm hij hlt
  have hT : empty.Accounts e := fun id h => absurd h (by simp [clean_empty id])
  have hmem := hg.mem_order ho hn
  rw [check, ho]
  exact ⟨fun hk => (ht.ends (checkAll_onward hg hT order)).2 _ hmem n hn hk,
    fun hk s hs => checkAll_told hg hk hn hs hids hmem ht hT⟩

end Typing

end Dataflow
