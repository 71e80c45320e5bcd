import Dataflow.Proofs.Engine.Bare
import Dataflow.Proofs.Session.Acyclic
import Dataflow.Proofs.Session.Edited
import Dataflow.Proofs.Session.Types

/-! The verdict on two ports tells what comes of joining them, also in the middle of a batch.

`Edit.connect` asks the question of `Session.check` once more, of a table that holds little or
nothing. By `Engine.perform_fst_of_bare` an empty table is as good as another; that `Session.table`,
with all that was asked before, is as good as an empty one takes kinds of nodes whose types are
static, by `Engine.typesDomain`. -/

namespace Dataflow

open Memo (Table)

/-- The roles in a rejection the other way round. -/
def Rejection.flip : Rejection → Rejection
  | incompatibleRoles src dest => incompatibleRoles dest src
  | r => r

/-- The outcome of joining two ports is as the verdict on them says: the connection runs along the
wire, at a slot of its own, or the same rejection is given. -/
def Wire.Foretells : Except Rejection Wire → Except GraphError Connection → Prop
  | .ok w, .ok c => c.src = w.src ∧ c.dest = { w.dest with slot := c.dest.slot }
  | .error r, .error failure => failure = .invalidConnection r
  | _, _ => False

theorem Wire.Foretells.isOk {verdict : Except Rejection Wire}
    {outcome : Except GraphError Connection} (h : Foretells verdict outcome) :
    (∃ w, verdict = .ok w) ↔ ∃ c, outcome = .ok c := by
  cases verdict <;> cases outcome <;> simp_all [Foretells]

theorem Wire.ofPorts_swap (p q : PortRef) :
    ofPorts q p = (ofPorts p q).mapError Rejection.flip := by
  unfold ofPorts
  by_cases hpq : p = q
  · simp [hpq, Except.mapError, Rejection.flip]
  by_cases hn : p.node = q.node
  · simp [hpq, Ne.symm hpq, hn, Except.mapError, Rejection.flip]
  · simp only [hpq, Ne.symm hpq, hn, Ne.symm hn, if_false]
    cases hp : p.role <;> cases hq : q.role <;>
      simp [PortRole.isSource, Except.mapError, Rejection.flip, hp, hq]

/-! ## Joining two ports in a batch -/

namespace Edit

variable {e : Edit} {p q : PortRef}

open EditM in
theorem connect_fst (p q : PortRef) (e : Edit) :
    ((connect p q).run e).1 =
      match (e.engine.perform (Wire.check e.graph p q).run e.scratch).1 with
      | .error r => .error (.invalidConnection r)
      | .ok w => (e.graph.insertConnection w.src w.dest).map (·.1) := by
  simp only [connect, run_bind, run_get]
  rcases e.engine.perform (Wire.check e.graph p q).run e.scratch with ⟨verdict, scratch⟩
  cases verdict with
  | error r => rfl
  | ok w =>
    simp only [run_bind, run_set, run_lift, run_pure]
    cases e.graph.insertConnection w.src w.dest with
    | error failure => rfl
    | ok r => rfl

variable {o : Precedence}

/-- Once a wire is accepted the graph takes the connection. -/
theorem connect_foretold (hg : e.graph.WellFormed)
    (hs : e.engine.Sound o Query.AboutStore e.scratch) (p q : PortRef) :
    Wire.Foretells (e.engine.perform (Wire.check e.graph p q).run e.scratch).1
      ((connect p q).run e).1 := by
  rw [connect_fst]
  cases hv : (e.engine.perform (Wire.check e.graph p q).run e.scratch).1 with
  | error r => rfl
  | ok w =>
    obtain ⟨s, t, hw⟩ : ∃ s t, w.Admitted e.graph s t := Engine.admitted_of_check hg hs hv
    simp only [Graph.insertConnection_eq hw.src hw.dest]
    refine ⟨rfl, ?_⟩
    obtain ⟨hn, hk, hr⟩ := Graph.assignSlot_group (g := e.graph) t.mode w.dest
    cases hd : e.graph.assignSlot t.mode w.dest
    simp_all

end Edit

namespace Session

variable {s : Session}

/-! ## Joining two ports in a session -/

theorem check_swap (p q : PortRef) (s : Session) :
    (check q p s).1 = (check p q s).1 ∨
      ∃ r, (check p q s).1 = .error r ∧ (check q p s).1 = .error r.flip := by
  rw [check_fst, check_fst]
  unfold Wire.check
  rw [Wire.ofPorts_swap]
  cases Wire.ofPorts p q with
  | error r => exact .inr ⟨r, rfl, rfl⟩
  | ok w => exact .inl rfl

theorem connect_fst (p q : PortRef) (s : Session) :
    (connect p q s).1 = ((Edit.connect p q).run s.openEdit).1 := by
  rw [connect, edit]
  rcases (Edit.connect p q).run s.openEdit with ⟨_ | _, _⟩ <;> rfl

theorem portState_fst (q : PortRef) (s : Session) :
    (portState q s).1 =
      (s.engine.perform (PortState.ofPort s.graph s.pending q) s.table).1 := rfl

theorem portState_hot {p q : PortRef} (hp : s.pending = some p) (hpq : p ≠ q) :
    (portState q s).1 = .hot ↔ ∃ w, (check p q s).1 = .ok w := by
  rw [portState_fst, hp, check_fst]
  simp only [PortState.ofPort, hpq, if_false]
  change (Plan.run s.engine.ask _ s.table).1 = _ ↔
    ∃ w, (Plan.run s.engine.ask (Wire.check s.graph p q).run s.table).1 = .ok w
  rw [Plan.run_bind_fst]
  cases (Plan.run s.engine.ask (Wire.check s.graph p q).run s.table).1 with
  | error r => exact iff_of_false (fun h => by cases h) fun h => by obtain ⟨_, h⟩ := h; cases h
  | ok w => exact ⟨fun _ => ⟨w, rfl⟩, fun _ => rfl⟩

/-- Joining two ports comes to what a session says that remembers nothing. -/
theorem check_forget_foretells (h : s.graph.WellFormed) (p q : PortRef) :
    Wire.Foretells (check p q s.forget).1 (connect p q s).1 := by
  have hv : (check p q s.forget).1 =
      (s.engine.perform (Wire.check s.graph p q).run (.empty false)).1 :=
    Engine.perform_fst_of_bare _ (show s.forget.table.bare = Table.bare (.empty false) from rfl)
  rw [hv, connect_fst]
  exact Edit.connect_foretold (o := .last) (e := s.openEdit) h (.of_empty rfl) p q

/-- Where types are static the verdict is that of a session that remembers nothing. -/
theorem check_forget (h : s.Reached) (hc : s.catalogue.Typed) (p q : PortRef) :
    (check p q s).1 = (check p q s.forget).1 :=
  perform_forget h hc (Wire.check_within ..)

/-! ## The middle of a batch -/

/-- The batch after some steps. -/
def underway (s : Session) (steps : List Step) : Edit := (Step.applyAll steps s.openEdit).2

/-- The session with the graph that a batch has made so far, and nothing remembered. -/
def midway (s : Session) (steps : List Step) : Session :=
  { s with graph := (s.underway steps).graph }.forget

theorem underway_engine (s : Session) (steps : List Step) :
    (s.underway steps).engine = (s.midway steps).engine := by
  have h : (s.underway steps).catalogue = s.catalogue ∧
      (s.underway steps).limit = s.config.limit := by
    refine Step.applyAll_keeps (e := s.openEdit)
      (motive := fun e => e.catalogue = s.catalogue ∧ e.limit = s.config.limit) (fun c e he => ?_)
      steps ⟨rfl, rfl⟩
    obtain ⟨hcat, hl⟩ := Edit.apply_engine c e
    exact ⟨hcat.trans he.1, hl.trans he.2⟩
  simp only [Edit.engine, engine, h.1, h.2, midway, forget]

/-- Where types are static, what a batch remembers on its way is right. -/
theorem underway_sound (hc : s.catalogue.Typed) (steps : List Step) :
    (s.underway steps).engine.Sound .last Query.AboutTypes (s.underway steps).scratch := by
  suffices (s.underway steps).catalogue.Typed ∧ _ from this.2
  refine Step.applyAll_keeps (e := s.openEdit) (motive := fun e => e.catalogue.Typed ∧
    e.engine.Sound .last Query.AboutTypes e.scratch) (fun c e he => ?_) steps ⟨hc, .of_empty rfl⟩
  obtain ⟨hcat, hs⟩ := he
  have hD : e.engine.Domain .last Query.AboutTypes Query.AboutTypes :=
    Engine.typesDomain hcat fun _ => id
  exact ⟨(Edit.apply_engine c e).1 ▸ hcat, Edit.apply_sound hD Engine.types_apart hs c⟩

/-- In the middle of a batch two ports are joined or refused as in a session that begins there, if
the batch remembers nothing or types are static. -/
theorem midway_foretells (h : s.graph.WellFormed) {steps : List Step}
    (hs : s.catalogue.Typed ∨ (s.underway steps).scratch.bare = .empty false) (p q : PortRef) :
    Wire.Foretells (check p q (s.midway steps)).1
      ((Edit.connect p q).run (s.underway steps)).1 := by
  have hsound :
      (s.underway steps).engine.Sound .last Query.AboutTypes (s.underway steps).scratch := by
    rcases hs with hc | hempty
    · exact underway_sound hc steps
    · exact .of_empty (congrArg Table.entries hempty)
  have hv : (check p q (s.midway steps)).1 = ((s.underway steps).engine.perform
      (Wire.check (s.underway steps).graph p q).run (s.underway steps).scratch).1 := by
    rw [check_fst, ← underway_engine]
    rcases hs with hc | hempty
    · refine (Engine.typesDomain ?_ fun _ => id).perform_fst (Wire.check_within ..)
        (.of_empty rfl) hsound
      rw [underway_engine]
      exact hc
    · exact Engine.perform_fst_of_bare _ (show Table.bare (.empty _) = _ from hempty.symm)
  rw [hv]
  exact Edit.connect_foretold (tracks_openEdit h steps).wellFormed
    (hsound.mono fun _ hq => hq.aboutTypes) p q

/-- The output of the first of two nodes is being dragged. -/
def hand : Session :=
  let pair (id : NodeId) : Node := ⟨id, "Core", "Pair", ∅, NodeDefinition.pair.ports⟩
  (setPending (some ⟨⟨0⟩, "output", .output, 0⟩)
    (load ⟨"hand", 1, [pair ⟨0⟩, pair ⟨1⟩], []⟩ (start .default .builtin)).2).2

end Session

end Dataflow
