import Dataflow.Proofs.Engine.Bystanders
import Dataflow.Proofs.Graph.Acyclic
import Dataflow.Proofs.Graph.Undo
import Dataflow.Session.Edit

/-! What one change does: the changed graph, the inverse of the change, and the nodes it touches
(`Effect`).

A batch carries these along and looks at nothing else, so all that is to be known about a change is
said here once (`Move`). -/

namespace Dataflow

open Memo (Table)

/-- What a change gives back and leaves behind when it succeeds. -/
structure Effect where
  result : Change.Result
  graph : Graph
  undo : Undo
  touched : List NodeId

/-- The effect of a connection, once it is known whether it may be made. -/
def Graph.join (g : Graph) : Except Rejection Wire → Except GraphError Effect
  | .error r => .error (.invalidConnection r)
  | .ok w => do
    let (c, g) ← g.insertConnection w.src w.dest
    return ⟨.connection c, g, .addedConnection c.id, Edit.endsOf [c]⟩

namespace Change

/-- The effect of a change, or why it fails. Only a connection asks questions first. -/
def effect (e : Engine) : Change → StateM Table (Except GraphError Effect)
  | addNode module type params => pure do
    let d := e.catalogue.definition module type
    let params ←
      if e.catalogue.contains module type then completeParams type d.params params else pure params
    let (id, graph) := e.graph.addNode module type params d.ports
    return ⟨.nodeId id, graph, .addedNode id, [id]⟩
  | removeNode id => pure do
    let ((n, removed), graph) ← e.graph.removeNode id
    return ⟨.node n, graph, .removedNode n removed, id :: Edit.endsOf removed⟩
  | connect p q => e.graph.join <$> e.perform (Wire.check e.graph p q).run
  | disconnect id => pure do
    let (c, graph) ← e.graph.removeConnection id
    return ⟨.connection c, graph, .removedConnection c, Edit.endsOf [c]⟩
  | setParam id key value => pure do
    let n ← e.graph.requireNode id
    if e.catalogue.contains n.module n.type then
      checkParam n.type (e.catalogue.definitionOf n).params key value
    let (previous, graph) ← e.graph.setParam id key value
    return ⟨.nothing, graph, .setParam id key previous, [id]⟩

end Change

/-! ## A change within a batch -/

namespace EditM

variable {α β : Type} (e : Edit)

theorem run_bind (x : EditM α) (f : α → EditM β) :
    (x >>= f).run e = match x.run e with
      | (.ok a, e) => (f a).run e
      | (.error failure, e) => (.error failure, e) := by
  have h : (x >>= f).run e = ExceptT.bindCont f (x.run e).1 (x.run e).2 := rfl
  rw [h]
  rcases x.run e with ⟨_ | _, _⟩ <;> rfl

theorem run_map (f : α → β) (x : EditM α) :
    (f <$> x).run e = match x.run e with
      | (.ok a, e) => (.ok (f a), e)
      | (.error failure, e) => (.error failure, e) :=
  run_bind e x fun a => pure (f a)

theorem run_get : (get : EditM Edit).run e = (.ok e, e) := rfl

theorem run_set (e' : Edit) : (set e' : EditM PUnit).run e = (.ok ⟨⟩, e') := rfl

theorem run_pure (a : α) : (pure a : EditM α).run e = (.ok a, e) := rfl

theorem run_lift (x : Except GraphError α) : (liftM x : EditM α).run e = (x, e) := by
  cases x <;> rfl

end EditM

namespace Edit

open EditM

/-- Takes over an effect. -/
def follow (e : Edit) (f : Effect) : Edit := e.record f.graph f.undo f.touched

/-- What a change gives back and makes of a batch, once its effect and the table are known. -/
def after (e : Edit) : Except GraphError Effect × Table → Except GraphError Change.Result × Edit
  | (.ok f, t) => (.ok f.result, { e with scratch := t }.follow f)
  | (.error failure, t) => (.error failure, { e with scratch := t })

theorem apply_run (c : Change) (e : Edit) :
    c.apply.run e = e.after (c.effect e.engine e.scratch) := by
  cases c with
  | addNode module type params =>
    simp only [Change.apply, Change.effect, Edit.addNode, run_map, run_bind, run_get, engine]
    by_cases hk : e.catalogue.contains module type
    · simp only [hk, if_true, run_bind, run_lift]
      cases completeParams type (e.catalogue.definition module type).params params with
      | error failure => rfl
      | ok params => rfl
    · simp only [hk]
      rfl
  | removeNode id =>
    simp only [Change.apply, Change.effect, Edit.removeNode, run_map, run_bind, run_get, run_lift,
      run_set, run_pure, engine]
    cases e.graph.removeNode id with
    | error failure => rfl
    | ok r => rfl
  | connect p q =>
    have heffect : (Change.connect p q).effect e.engine e.scratch =
        (e.graph.join (e.engine.perform (Wire.check e.graph p q).run e.scratch).1,
          (e.engine.perform (Wire.check e.graph p q).run e.scratch).2) := rfl
    rw [heffect]
    simp only [Change.apply, Edit.connect, run_map, run_bind, run_get]
    rcases e.engine.perform (Wire.check e.graph p q).run e.scratch with ⟨verdict, scratch⟩
    cases verdict with
    | error r => rfl
    | ok w =>
      simp only [run_bind, run_set, run_lift, run_pure, Graph.join]
      cases e.graph.insertConnection w.src w.dest with
      | error failure => rfl
      | ok r => rfl
  | disconnect id =>
    simp only [Change.apply, Change.effect, Edit.disconnect, run_map, run_bind, run_get, run_lift,
      run_set, run_pure, engine]
    cases e.graph.removeConnection id with
    | error failure => rfl
    | ok r => rfl
  | setParam id key value =>
    simp only [Change.apply, Change.effect, Edit.setParam, run_map, run_bind, run_get, run_lift,
      engine]
    cases e.graph.requireNode id with
    | error failure => rfl
    | ok n =>
      by_cases hk : e.catalogue.contains n.module n.type
      · simp only [hk, if_true, bind, Except.bind]
        cases checkParam n.type (e.catalogue.definitionOf n).params key value with
        | error failure => rfl
        | ok _ =>
          simp only
          cases e.graph.setParam id key value with
          | error failure => rfl
          | ok r => rfl
      · simp only [hk, if_false, Bool.false_eq_true, bind, Except.bind]
        cases e.graph.setParam id key value with
        | error failure => rfl
        | ok r => rfl

end Edit

/-! ## What a change remembers -/

theorem Edit.apply_engine (c : Change) (e : Edit) :
    (c.apply.run e).2.catalogue = e.catalogue ∧ (c.apply.run e).2.limit = e.limit := by
  rw [apply_run]
  rcases c.effect e.engine e.scratch with ⟨r, t⟩
  cases r <;> exact ⟨rfl, rfl⟩

section Sound

variable {o : Precedence} {P : Query → Prop}

theorem Change.effect_sound {e : Engine} {t : Table} (hD : e.Domain o P P) (hP : Engine.Apart P)
    (ht : e.Sound o P t) (c : Change) : e.Sound o P (c.effect e t).2 := by
  cases c with
  | connect p q => exact hD.perform_sound_of_apart hP ht
  | _ => exact ht

/-- A change that is made forgets all, and one that fails has only asked. -/
theorem Edit.apply_sound {e : Edit} (hD : e.engine.Domain o P P) (hP : Engine.Apart P)
    (h : e.engine.Sound o P e.scratch) (c : Change) :
    (c.apply.run e).2.engine.Sound o P (c.apply.run e).2.scratch := by
  have ht := Change.effect_sound hD hP h c
  rw [apply_run]
  generalize c.effect e.engine e.scratch = r at ht ⊢
  obtain ⟨r, t⟩ := r
  cases r with
  | ok f => exact .of_empty rfl
  | error failure => exact ht

end Sound

/-! ## What an effect can be -/

/-- The effect of each kind of change, and what was asked for it. -/
inductive Move (e : Engine) (t : Table) : Change → Effect → Prop
  | addNode {module type : String} {given params : Params} :
    Move e t (.addNode module type given)
      ⟨.nodeId ⟨e.graph.nextNode⟩,
        (e.graph.addNode module type params (e.catalogue.definition module type).ports).2,
        .addedNode ⟨e.graph.nextNode⟩, [⟨e.graph.nextNode⟩]⟩
  | removeNode {id : NodeId} {n : Node} (hn : e.graph.node? id = some n) :
    Move e t (.removeNode id)
      ⟨.node n, e.graph.without id (e.graph.connectionsOf id),
        .removedNode n (e.graph.connectionsOf id), id :: Edit.endsOf (e.graph.connectionsOf id)⟩
  | connect {p q : PortRef} {w : Wire} {c : Connection}
      (hw : (e.perform (Wire.check e.graph p q).run t).1 = .ok w)
      (hc : e.graph.insertConnection w.src w.dest = .ok (c, e.graph.joined c)) :
    Move e t (.connect p q)
      ⟨.connection c, e.graph.joined c, .addedConnection c.id, Edit.endsOf [c]⟩
  | disconnect {c : Connection} (hc : e.graph.connection? c.id = some c) :
    Move e t (.disconnect c.id)
      ⟨.connection c, e.graph.severed c, .removedConnection c, Edit.endsOf [c]⟩
  | setParam {n : Node} {key : String} {value : ParamValue}
      (hn : e.graph.node? n.id = some n) :
    Move e t (.setParam n.id key value)
      ⟨.nothing,
        { e.graph with
          nodes := e.graph.nodes.insert n.id { n with params := n.params.insert key value }
          generation := e.graph.generation + 1 },
        .setParam n.id key n.params[key]?, [n.id]⟩

variable {e : Engine} {t : Table} {c : Change} {f : Effect}

theorem Change.move (hg : e.graph.WellFormed) (h : (c.effect e t).1 = .ok f) : Move e t c f := by
  cases c with
  | addNode module type given =>
    obtain ⟨params, hf⟩ : ∃ params, f =
        ⟨.nodeId ⟨e.graph.nextNode⟩,
          (e.graph.addNode module type params (e.catalogue.definition module type).ports).2,
          .addedNode ⟨e.graph.nextNode⟩, [⟨e.graph.nextNode⟩]⟩ := by
      simp only [effect] at h
      split at h
      · obtain ⟨params, -, hf⟩ := bind_ok h
        exact ⟨params, (Except.ok.inj hf).symm⟩
      · exact ⟨given, (Except.ok.inj h).symm⟩
    subst hf
    exact .addNode
  | removeNode id =>
    obtain ⟨⟨⟨n, cs⟩, g'⟩, hr, hf⟩ := bind_ok h
    obtain ⟨hn, rfl, rfl⟩ := Graph.removeNode_ok.1 hr
    cases hf
    exact .removeNode hn
  | connect p q =>
    have h : e.graph.join (e.perform (Wire.check e.graph p q).run t).1 = .ok f := h
    cases hv : (e.perform (Wire.check e.graph p q).run t).1 with
    | error r =>
      rw [hv] at h
      cases h
    | ok w =>
      rw [hv] at h
      obtain ⟨⟨c, g'⟩, hr, hf⟩ := bind_ok h
      obtain ⟨-, -, -, rfl, -⟩ := Graph.insertConnection_ok hr
      cases hf
      exact .connect hv hr
  | disconnect id =>
    obtain ⟨⟨c, g'⟩, hr, hf⟩ := bind_ok h
    obtain ⟨hc, rfl⟩ := (Graph.removeConnection_ok hg).1 hr
    obtain rfl := hg.connection_id hc
    cases hf
    exact .disconnect hc
  | setParam id key value =>
    obtain ⟨n, hn, hf⟩ : ∃ n, e.graph.node? id = some n ∧ f =
        ⟨.nothing,
          { e.graph with
            nodes := e.graph.nodes.insert id { n with params := n.params.insert key value }
            generation := e.graph.generation + 1 },
          .setParam id key n.params[key]?, [id]⟩ := by
      obtain ⟨m, -, h⟩ := bind_ok h
      have h : ∃ r, e.graph.setParam id key value = .ok r ∧
          f = ⟨.nothing, r.2, .setParam id key r.1, [id]⟩ := by
        split at h
        · obtain ⟨_, -, h⟩ := bind_ok h
          obtain ⟨r, hr, hf⟩ := bind_ok h
          exact ⟨r, hr, (Except.ok.inj hf).symm⟩
        · obtain ⟨r, hr, hf⟩ := bind_ok h
          exact ⟨r, hr, (Except.ok.inj hf).symm⟩
      obtain ⟨⟨previous, g'⟩, hr, rfl⟩ := h
      obtain ⟨n, hn, rfl, rfl⟩ := Graph.setParam_ok.1 hr
      exact ⟨n, hn, rfl⟩
    subst hf
    obtain rfl := hg.node_id hn
    exact .setParam hn

theorem mem_endsOf {cs : List Connection} {id : NodeId} :
    id ∈ Edit.endsOf cs ↔ ∃ c ∈ cs, Graph.Touches c id := by
  simp [Edit.endsOf, Graph.Touches, @eq_comm _ id]

namespace Move

theorem wellFormed (m : Move e t c f) (hg : e.graph.WellFormed) : f.graph.WellFormed := by
  cases m with
  | addNode => exact hg.addNode ..
  | removeNode hn => exact hg.without _
  | connect hw hc => exact hg.insertConnection hc
  | disconnect hc => exact hg.severed hc
  | @setParam n key value hn =>
    exact hg.replace (n := { n with params := n.params.insert key value }) (by simp [hn])

/-- The inverse of a change takes it back. -/
theorem undo (m : Move e t c f) (hg : e.graph.WellFormed) :
    (f.graph.undo f.undo).SameTables e.graph := by
  cases m with
  | addNode => exact Graph.undo_addNode hg ..
  | removeNode hn => exact Graph.undo_removeNode hg hn
  | connect hw hc => exact Graph.undo_insertConnection hg (Graph.insertConnection_ok hc).1
  | disconnect hc => exact Graph.undo_removeConnection hg hc
  | setParam hn => exact Graph.undo_setParam hn _

/-- A node that is not touched stays as it is, and so do its connections. -/
theorem sameAt (m : Move e t c f) (hg : e.graph.WellFormed) {id : NodeId} (hid : id ∉ f.touched) :
    f.graph.SameAt e.graph id := by
  refine hg.sameAt (m.wellFormed hg) ?_ fun d hd => ?_
  · cases m with
    | addNode => exact (Graph.node?_insert ..).trans (if_neg (by simpa using hid))
    | @removeNode rid n hn =>
      have hne : id ≠ rid := fun h => hid (h ▸ List.mem_cons_self)
      rw [Graph.node?_without, if_neg hne]
    | connect hw hc => rfl
    | disconnect hc => rfl
    | setParam hn => exact (Graph.node?_insert ..).trans (if_neg (by simpa using hid))
  · cases m with
    | addNode => exact Iff.rfl
    | @removeNode rid n hn =>
      rw [hg.connection?_without_connectionsOf]
      refine and_iff_left_of_imp fun hk ht => hid (.tail _ ?_)
      exact mem_endsOf.2 ⟨d, hg.mem_connectionsOf.2 ⟨hk, ht⟩, hd⟩
    | @connect p q w c hw hc =>
      have fresh := (Graph.insertConnection_ok hc).1 ▸ hg.not_connection_next
      rw [Graph.connection?_joined]
      split
      · have hne : c ≠ d := fun h => hid (mem_endsOf.2 ⟨c, List.mem_singleton_self c, h ▸ hd⟩)
        simp [*]
      · exact Iff.rfl
    | @disconnect c hc =>
      rw [Graph.connection?_severed]
      split
      · have hne : c ≠ d := fun h => hid (mem_endsOf.2 ⟨c, List.mem_singleton_self c, h ▸ hd⟩)
        simp [*]
      · exact Iff.rfl
    | setParam hn => exact Iff.rfl

theorem touched_ne_nil (m : Move e t c f) : f.touched ≠ [] := by
  cases m <;> exact List.cons_ne_nil _ _

end Move

end Dataflow
