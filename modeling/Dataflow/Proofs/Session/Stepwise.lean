import Dataflow.Proofs.Engine.Bare
import Dataflow.Proofs.Graph.Ledger
import Dataflow.Proofs.Session.Replay
import Dataflow.Proofs.Session.Types

/-! A batch comes to the same as its changes made one at a time.

Only a connection asks questions. What `Edit.scratch` holds when one is tried makes no difference
where types are found by questions about types, by `Engine.typesDomain`; and it holds nothing unless
another connection has been refused since the last change, by `Engine.perform_unmarked`. -/

namespace Dataflow

open Memo (Table)

/-- Whether the step is a change that was made. -/
def Step.changed : Step → Except GraphError Change.Result → Bool
  | change _ _, .ok _ => true
  | _, _ => false

/-- Whether the step asks questions. -/
def Step.asks : Step → Bool
  | change (.connect _ _) _ => true
  | _ => false

/-- Whether no connection is tried between a refused one and the next change that is made. At first
one has been refused if `stale`. -/
def Step.areFresh : (stale : Bool) → List (Step × Except GraphError Change.Result) → Bool
  | _, [] => true
  | stale, (st, r) :: rest =>
    !(stale && st.asks) && areFresh ((stale || st.asks) && !st.changed r) rest

/-! ## Changes that a batch has no part in -/

/-- The change has the effect that it has where nothing is remembered. -/
def Change.Unswayed (c : Change) (e : Edit) : Prop :=
  (c.effect e.engine e.scratch).1 = (c.effect e.engine (.empty false)).1

namespace Step

def Unswayed : Step → Edit → Prop
  | change c _, e => c.Unswayed e
  | sizes, _ => True

/-- Each step that the batch comes to is unswayed. -/
def AllUnswayed : List Step → Edit → Prop
  | [], _ => True
  | st :: steps, e => st.Unswayed e ∧ AllUnswayed steps (st.apply.run e).2

variable {e : Edit} {st : Step} {steps : List Step}

theorem unswayed_of_sound (hc : e.engine.catalogue.Typed)
    (hs : e.engine.Sound .last Query.AboutTypes e.scratch) (st : Step) : st.Unswayed e := by
  cases st with
  | sizes => trivial
  | change c mayFail =>
    cases c with
    | connect p q =>
      refine congrArg e.graph.join ?_
      exact (Engine.typesDomain hc fun _ => id).perform_fst (Wire.check_within ..) hs
        (.of_empty rfl)
    | _ => rfl

/-- Where types are found by questions about types, what a batch remembers is right. -/
theorem allUnswayed_of_typed (hc : e.engine.catalogue.Typed)
    (hs : e.engine.Sound .last Query.AboutTypes e.scratch) (steps : List Step) :
    AllUnswayed steps e := by
  induction steps generalizing e with
  | nil => trivial
  | cons st steps ih =>
    refine ⟨unswayed_of_sound hc hs st, ?_⟩
    cases st with
    | sizes => exact ih hc hs
    | change c mayFail =>
      have hcat : (c.apply.run e).2.catalogue = e.catalogue := (Edit.apply_engine c e).1
      refine ih (show (c.apply.run e).2.catalogue.Typed from hcat ▸ hc) ?_
      exact Edit.apply_sound (Engine.typesDomain hc fun _ => id) Engine.types_apart hs c

theorem unswayed_of_bare (h : st.asks → e.scratch.bare = .empty false) : st.Unswayed e := by
  cases st with
  | sizes => trivial
  | change c mayFail =>
    cases c with
    | connect p q =>
      have hempty : e.scratch.bare = Table.bare (.empty false) := h rfl
      exact congrArg e.graph.join (Engine.perform_fst_of_bare _ hempty)
    | _ => rfl

/-- After a change that is made nothing is remembered, and a step that asks nothing remembers
nothing. -/
theorem scratch_apply (st : Step) (e : Edit) :
    (st.apply.run e).2.scratch.bare = .empty false ∨ st.changed (st.apply.run e).1 = false ∧
      (st.asks = false → (st.apply.run e).2.scratch = e.scratch) := by
  cases st with
  | sizes => exact .inr ⟨rfl, fun _ => rfl⟩
  | change c mayFail =>
    change (c.apply.run e).2.scratch.bare = _ ∨
      (change c mayFail).changed (c.apply.run e).1 = false ∧ (_ → (c.apply.run e).2.scratch = _)
    have ht : (change c mayFail).asks = false → (c.effect e.engine e.scratch).2 = e.scratch := by
      cases c with
      | connect p q => exact fun h => by cases h
      | _ => exact fun _ => rfl
    rw [Edit.apply_run]
    generalize c.effect e.engine e.scratch = r at ht ⊢
    obtain ⟨r, t⟩ := r
    cases r with
    | ok f => exact .inl (Table.bare_eq_empty rfl rfl rfl)
    | error failure => exact .inr ⟨rfl, ht⟩

/-- Where no connection is tried after a refused one, a batch remembers nothing when it asks. -/
theorem allUnswayed_of_fresh {stale : Bool} (he : stale = false → e.scratch.bare = .empty false)
    (hf : (applyAll steps e).1.failure = none)
    (h : areFresh stale (steps.zip (applyAll steps e).1.results)) : AllUnswayed steps e := by
  induction steps generalizing e stale with
  | nil => trivial
  | cons st steps ih =>
    rcases st.goesOn_or_stops (st.apply.run e).1 with hgo | ⟨hm, failure, hstop⟩
    · rw [applyAll_go hgo] at hf h
      simp only [List.zip_cons_cons, areFresh, Bool.and_eq_true] at h
      obtain ⟨hnow, hrest⟩ := h
      refine ⟨unswayed_of_bare fun hasks => he (by simpa [hasks] using hnow), ?_⟩
      refine ih (fun hstale => ?_) hf hrest
      rcases scratch_apply st e with hempty | ⟨hch, hsame⟩
      · exact hempty
      · simp only [hch, Bool.not_false, Bool.and_true, Bool.or_eq_false_iff] at hstale
        rw [hsame hstale.2, he hstale.1]
    · rw [applyAll_stop hstop hm] at hf
      cases hf

end Step

/-! ## A batch beside single changes -/

namespace Session

variable {s : Session} {e : Edit}

theorem edit_run {α : Type} (x : EditM α) (s : Session) : edit x s =
    match x.run s.openEdit with
    | (.ok a, e) => (.ok a, s.commit e)
    | (.error failure, e) => (.error failure, s.abandon e) := rfl

theorem commit_catalogue (e : Edit) :
    (s.commit e).catalogue = s.catalogue ∧ (s.commit e).config = s.config := by
  unfold commit
  dsimp only
  split <;> exact ⟨rfl, rfl⟩

theorem commit_version (e : Edit) :
    (s.commit e).version =
      if e.touched.isEmpty then s.version else (s.version + 1) % countBound := by
  unfold commit
  dsimp only
  split <;> rfl

/-- Makes the changes of all steps, each as a batch of its own. -/
def editEach (steps : List Step) : StateM Session (List (Except GraphError Change.Result)) :=
  steps.mapM fun st => edit st.apply

theorem editEach_cons (st : Step) (steps : List Step) (s : Session) :
    editEach (st :: steps) s =
      ((edit st.apply s).1 :: (editEach steps (edit st.apply s).2).1,
        (editEach steps (edit st.apply s).2).2) := by
  rw [editEach, List.mapM_cons]
  rfl

/-- A change by itself is a batch of its own. -/
theorem editAll_change (c : Change) (s : Session) :
    (editAll [.change c false] s).2 = (edit c.apply s).2 := by
  rw [editAll_snd, edit_run]
  have hfst : (editAll [.change c false] s).1 =
      (Step.applyAll [.change c false] s.openEdit).1 := rfl
  have hrun : (Step.change c false).apply.run s.openEdit = c.apply.run s.openEdit := rfl
  rw [hfst]
  rcases hr : c.apply.run s.openEdit with ⟨r, e⟩
  cases r with
  | ok a =>
    rw [Step.applyAll_go (.inr ⟨a, congrArg Prod.fst (hrun.trans hr)⟩), hrun, hr]
    rfl
  | error failure =>
    rw [Step.applyAll_stop (congrArg Prod.fst (hrun.trans hr)) rfl, hrun, hr]
    rfl

theorem edit_map_snd {α β : Type} (f : α → β) (x : EditM α) (s : Session) :
    (edit (f <$> x) s).2 = (edit x s).2 := by
  rw [edit_run, edit_run, EditM.run_map]
  rcases x.run s.openEdit with ⟨_ | _, _⟩ <;> rfl

theorem edit_fst {α : Type} (x : EditM α) (s : Session) : (edit x s).1 = (x.run s.openEdit).1 := by
  rw [edit_run]
  rcases x.run s.openEdit with ⟨_ | _, _⟩ <;> rfl

/-- A step that fails leaves the session as it was. -/
theorem edit_refused (hg : s.graph.WellFormed) {st : Step}
    (h : (st.apply.run s.openEdit).1.isOk = false) : (edit st.apply s).2 = s := by
  have htracks : ((st.apply.run s.openEdit).2).Tracks s.graph := by
    cases st with
    | change c mayFail => exact (Edit.Tracks.start hg ..).apply c
    | sizes => exact .start hg ..
  rw [edit_run]
  generalize st.apply.run s.openEdit = r at h htracks
  obtain ⟨_ | _, e⟩ := r
  · exact abandon_eq htracks
  · cases h

/-- A batch has come as far as a session in which each change was a batch of its own. -/
structure Beside (e : Edit) (s : Session) : Prop where
  graph : e.graph = s.graph
  catalogue : e.catalogue = s.catalogue
  limit : e.limit = s.config.limit
  wellFormed : s.graph.WellFormed

theorem Beside.engine (h : Beside e s) : e.engine = s.engine := by
  simp only [Edit.engine, Session.engine, h.graph, h.catalogue, h.limit]

theorem Beside.start (h : s.graph.WellFormed) : Beside s.openEdit s := ⟨rfl, rfl, rfl, h⟩

/-- One change has the same outcome in the batch and in a batch of its own. -/
theorem Beside.change (h : Beside e s) {c : Change} (hu : c.Unswayed e) :
    (c.apply.run e).1 = (edit c.apply s).1 ∧ Beside (c.apply.run e).2 (edit c.apply s).2 := by
  have hfst : (c.effect e.engine e.scratch).1 = (c.effect s.engine s.openEdit.scratch).1 := by
    rw [← h.engine]
    exact hu
  have htracks := (Edit.Tracks.start h.wellFormed s.catalogue s.config.limit).apply c
  change ((c.apply.run s.openEdit).2).Tracks s.graph at htracks
  rw [Edit.apply_run] at htracks
  rw [edit_run, Edit.apply_run, Edit.apply_run]
  rw [show s.openEdit.engine = s.engine from rfl] at htracks ⊢
  generalize c.effect s.engine s.openEdit.scratch = r' at hfst htracks
  generalize c.effect e.engine e.scratch = r at hfst
  obtain ⟨r, t⟩ := r
  obtain ⟨r', t'⟩ := r'
  obtain rfl : r = r' := hfst
  cases r with
  | ok f =>
    have hc := commit_catalogue (s := s) ({ s.openEdit with scratch := t' }.follow f)
    change _ ∧ Beside ({ e with scratch := t }.follow f)
      (s.commit ({ s.openEdit with scratch := t' }.follow f))
    refine ⟨rfl, ?_, h.catalogue.trans hc.1.symm,
      h.limit.trans (congrArg Config.limit hc.2.symm), ?_⟩
    · rw [commit_graph]
      rfl
    · rw [commit_graph]
      exact htracks.wellFormed
  | error failure =>
    have habandon : s.abandon { s.openEdit with scratch := t' } = s := abandon_eq htracks
    refine ⟨rfl, ?_⟩
    simp only [Edit.after, habandon]
    exact ⟨h.graph, h.catalogue, h.limit, h.wellFormed⟩

theorem Beside.step (h : Beside e s) {st : Step} (hu : st.Unswayed e) :
    (st.apply.run e).1 = (edit st.apply s).1 ∧ Beside (st.apply.run e).2 (edit st.apply s).2 := by
  cases st with
  | change c mayFail => exact h.change hu
  | sizes =>
    have hs : (edit Step.sizes.apply s).2 = s := rfl
    rw [hs]
    refine ⟨?_, h⟩
    change Except.ok (Change.Result.sizes e.graph.nodes.size _ _) = _
    rw [h.graph]
    rfl

/-- A batch that does not fail has come to the same as its changes made one at a time. -/
theorem Beside.applyAll (h : Beside e s) {steps : List Step} (hu : Step.AllUnswayed steps e)
    (hf : (Step.applyAll steps e).1.failure = none) :
    (Step.applyAll steps e).1.results = (editEach steps s).1 ∧
      Beside (Step.applyAll steps e).2 (editEach steps s).2 := by
  induction steps generalizing e s with
  | nil => exact ⟨rfl, h⟩
  | cons st steps ih =>
    obtain ⟨hst, hu⟩ := hu
    obtain ⟨hr, hb⟩ := h.step hst
    rcases st.goesOn_or_stops (st.apply.run e).1 with hgo | ⟨hm, failure, hstop⟩
    · rw [Step.applyAll_go hgo] at hf ⊢
      rw [editEach_cons]
      obtain ⟨hrs, hb⟩ := ih hb hu hf
      exact ⟨congr (congrArg List.cons hr) hrs, hb⟩
    · rw [Step.applyAll_stop hstop hm] at hf
      cases hf

/-! ## All or nothing -/

theorem isEmpty_touched (hg : e.graph.WellFormed) (st : Step) :
    (st.apply.run e).2.touched.isEmpty =
      (e.touched.isEmpty && !st.changed (st.apply.run e).1) := by
  cases st with
  | sizes => exact (Bool.and_true _).symm
  | change c mayFail =>
    change (c.apply.run e).2.touched.isEmpty =
      (_ && !(Step.change c mayFail).changed (c.apply.run e).1)
    rcases Edit.apply_cases c e hg with ⟨f, t, hm, he⟩ | ⟨failure, t, he⟩
    · rw [he]
      obtain ⟨id, hid⟩ := List.exists_mem_of_ne_nil _ hm.touched_ne_nil
      have hmem := (Edit.mem_touched_follow (e := { e with scratch := t })).2 (.inl hid)
      have hne : ({ e with scratch := t }.follow f).touched.isEmpty = false :=
        Std.ExtTreeSet.isEmpty_eq_false_iff.2 fun h =>
          Std.ExtTreeSet.not_mem_empty (h ▸ hmem)
      exact hne.trans (Bool.and_false _).symm
    · rw [he]
      exact (Bool.and_true _).symm

/-- A batch touches something if one of its changes is made. -/
theorem isEmpty_touched_applyAll (hg : e.graph.WellFormed) (steps : List Step)
    (hf : (Step.applyAll steps e).1.failure = none) :
    (Step.applyAll steps e).2.touched.isEmpty = (e.touched.isEmpty &&
      !(steps.zip (Step.applyAll steps e).1.results).any fun r => r.1.changed r.2) := by
  induction steps generalizing e with
  | nil => exact (Bool.and_true _).symm
  | cons st steps ih =>
    rcases st.goesOn_or_stops (st.apply.run e).1 with hgo | ⟨hm, failure, hstop⟩
    · rw [Step.applyAll_go hgo] at hf ⊢
      have hg' : (st.apply.run e).2.graph.WellFormed := Edit.step_wellFormed hg st
      rw [ih hg' hf, isEmpty_touched hg, List.zip_cons_cons, List.any_cons, Bool.not_or,
        Bool.and_assoc]
    · rw [Step.applyAll_stop hstop hm] at hf
      cases hf

/-- A batch that fails leaves the session as it was. One that does not gives the results and makes
the graph that its changes would, each made as a batch of its own; and the version counts up by one,
past its width to zero, if any of them is made. By `Beside.applyAll` the batch has come, after each
of its steps, as far as the session has in which each change was a batch of its own.

That what the batch remembers has no part in it is `Step.allUnswayed_of_typed` or
`Step.allUnswayed_of_fresh`. Without either, a connection may be refused for what was asked for
another one, as at the two probes of `probed`. -/
theorem editAll_all_or_nothing (h : s.Reached) (steps : List Step) :
    ((editAll steps s).1.failure ≠ none → (editAll steps s).2 = s) ∧
      ((editAll steps s).1.failure = none →
        s.catalogue.Typed ∨ Step.areFresh false (steps.zip (editAll steps s).1.results) →
        (editAll steps s).1.results = (editEach steps s).1 ∧
          (editAll steps s).2.graph = (editEach steps s).2.graph ∧
          (editAll steps s).2.version =
            if (steps.zip (editAll steps s).1.results).any fun r => r.1.changed r.2
            then (s.version + 1) % countBound else s.version) := by
  refine ⟨editAll_failure h.wellFormed, fun hf hcalm => ?_⟩
  have hu : Step.AllUnswayed steps s.openEdit := by
    rcases hcalm with hc | hfresh
    · exact Step.allUnswayed_of_typed (e := s.openEdit) hc (.of_empty rfl) steps
    · exact Step.allUnswayed_of_fresh (fun _ => rfl) hf hfresh
  obtain ⟨hr, hb⟩ := (Beside.start h.wellFormed).applyAll hu hf
  have htouched := isEmpty_touched_applyAll (e := s.openEdit) h.wellFormed steps hf
  rw [editAll_snd, hf, Option.isNone_none, if_pos rfl, commit_graph, commit_version, htouched]
  refine ⟨hr, hb.graph, ?_⟩
  change (if (true && !_) = true then s.version else (s.version + 1) % countBound) = _
  rw [Bool.true_and, show (editAll steps s).1 = (Step.applyAll steps s.openEdit).1 from rfl]
  cases (steps.zip (Step.applyAll steps s.openEdit).1.results).any fun r => r.1.changed r.2 <;> rfl

/-- A batch in which a connection is refused, and one that fails after it has added a node. -/
theorem editAll_all_or_nothing_start :
    let s := start .default .builtin
    let p : PortRef := ⟨⟨0⟩, "output", .output, 0⟩
    let bad : List Step := [.change (.addNode "Core" "Pair" ∅) false,
      .change (.removeNode ⟨7⟩) false]
    let good : List Step := [.change (.addNode "Core" "Pair" ∅) false,
      .change (.connect p p) true, .change (.setParam ⟨0⟩ "key" (.text "k")) false, .sizes]
    (editAll bad s).2 = s ∧ (editAll good s).1.results = (editEach good s).1 ∧
      (editAll good s).2.graph = (editEach good s).2.graph ∧ (editAll good s).2.version = 1 := by
  intro s p bad good
  have h : s.Reached := .start ..
  have hgood := (editAll_all_or_nothing h good).2 (by decide +kernel)
    (.inl Catalogue.builtin_typed)
  exact ⟨(editAll_all_or_nothing h bad).1 (by decide +kernel), hgood.1, hgood.2.1,
    hgood.2.2.trans (by decide +kernel)⟩

/-- A kind of node that produces the type of a value: the one that the iterator before it gives out
when it is bound to a sample. -/
def probe (sample : Value) : NodeDefinition :=
  .plain [.input "input" .single, .output "output"] [] (fun _ _ _ => pure .nothing)
    (fun n _ context => do
      match ← Plan.connectionsInto n.id "input" with
      | [] => return .unresolved
      | c :: _ =>
        let scope := (Scope.root context).child (.ofList [(c.src.node, ⟨sample, 0, ∅⟩)] compare)
        match ← Plan.value c.src.node scope c.src.key with
        | .number _ => return .number
        | _ => return .string)
    (fun _ key _ => NodeDefinition.demandAt "input" (pure .unresolved) key)

/-- An iterator before two probes of different samples, and an adder. -/
def probed : Session :=
  let node (id : NodeId) (module type : String) (d : NodeDefinition) : Node :=
    ⟨id, module, type, ∅, d.ports⟩
  let wire (id : ConnectionId) (dest : NodeId) : Connection :=
    ⟨id, ⟨⟨0⟩, "output", .output, 0⟩, ⟨dest, "input", .input, 0⟩⟩
  (load ⟨"probed", 1, [node ⟨0⟩ "Core" "Iterate" .iterate,
      node ⟨1⟩ "Probe" "Text" (probe (.string "")), node ⟨2⟩ "Probe" "Number" (probe (.number 0)),
      node ⟨3⟩ "Math" "Add" (.arithmetic .add)], [wire ⟨0⟩ ⟨1⟩, wire ⟨1⟩ ⟨2⟩]⟩
    ((start .default .builtin).register "Probe"
      (.ofLists [("Text", probe (.string "")), ("Number", probe (.number 0))] []))).2

/-- The version is the last of its width, and one of two nodes has the last number but one. -/
def brimful : Session :=
  let node (id : NodeId) : Node := ⟨id, "Core", "Number", ∅, []⟩
  (load ⟨"brimful", countBound - 1, [node ⟨0⟩, node ⟨idBound - 2⟩], []⟩ (start .default .builtin)).2

/-- After its last value the version starts again, and so does the number of the next node: a batch
that fails after it has added two takes a third one out. And where types are found by values, the
connection to the first probe, which is refused, leaves a value behind that the second one is then
refused for; by itself it is not. -/
theorem editAll_differs :
    let add : Mutation := .addNode "Core" "Number" ∅ []
    let added := (editAll [.change (.addNode "Core" "Number" ∅) false] brimful)
    let l := (Ledger.ofGraph brimful.graph).runWrapping [.mutate add, .mutate add]
    let wire (id : NodeId) (key : String) : Step :=
      .change (.connect ⟨id, "output", .output, 0⟩ ⟨⟨3⟩, key, .input, 0⟩) true
    let wires := [wire ⟨1⟩ "lhs", wire ⟨2⟩ "rhs"]
    (brimful.Reached ∧ added.1.failure = none ∧ added.2.version ≠ brimful.version + 1 ∧
        (brimful.graph.node? ⟨0⟩).isSome ∧
        (l.graph.rollback brimful.graph.checkpoint l.journal).node? ⟨0⟩ = none) ∧
      probed.Reached ∧ (editAll wires probed).1.failure = none ∧
        (editAll wires probed).1.results.map Except.isOk = [false, false] ∧
        (editEach wires probed).1.map Except.isOk = [false, true] := by
  intro add added l wire wires
  have hb : (Step.applyAllWithin 16 wires probed.openEdit).map
      (fun r => (r.1.failure.isNone, r.1.results.map Except.isOk)) =
        some (true, [false, false]) := by
    decide +kernel
  obtain ⟨⟨b, e⟩, hr, hb⟩ := Option.map_eq_some_iff.1 hb
  obtain ⟨hnone, hresults⟩ := Prod.mk.inj hb
  have hr : (editAll wires probed).1 = b := congrArg Prod.fst (Step.applyAll_of_within hr)
  have alone {st : Step} {ok : Bool} (h : (probed.openEdit.applyWithin 16 st).map
      (fun r => r.1.isOk) = some ok) : (st.apply.run probed.openEdit).1.isOk = ok := by
    obtain ⟨r, hr, rfl⟩ := Option.map_eq_some_iff.1 h
    rw [Edit.apply_of_within hr]
  have hlhs : ((wire ⟨1⟩ "lhs").apply.run probed.openEdit).1.isOk = false :=
    alone (by decide +kernel)
  have hrhs : ((wire ⟨2⟩ "rhs").apply.run probed.openEdit).1.isOk = true :=
    alone (by decide +kernel)
  have hprobed : probed.Reached := .load _ (.register _ _ (.start ..))
  refine ⟨⟨.load _ (.start ..), by decide +kernel, by decide +kernel, by decide +kernel,
    by decide +kernel⟩, hprobed, ?_, hr ▸ hresults, ?_⟩
  · rw [hr]
    exact Option.isNone_iff_eq_none.1 hnone
  · rw [editEach_cons, editEach_cons, edit_refused hprobed.wellFormed hlhs, edit_fst, edit_fst]
    change [_, _] = _
    rw [hlhs, hrhs]

end Session

end Dataflow
