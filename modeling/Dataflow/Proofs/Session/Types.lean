import Dataflow.Proofs.Session.Memory

/-! What a session says about types, ports and connections does not depend on what it remembers
(`perform_forget`). -/

namespace Dataflow

variable {right : (q : Query) → q.Answer → Prop}

/-! ## Plans about types -/

namespace Plan

theorem port_within (p : PortRef) : (port p).Within Query.AboutTypes right := by
  refine .bind (.query (q := .ports p.node) trivial) fun ports => ?_
  cases ports with
  | none => exact .pure _
  | some ports =>
    dsimp only
    split <;> exact .pure _

end Plan

namespace Wire

theorem disagreement?_within (w : Wire) : w.disagreement?.Within Query.AboutTypes right :=
  .bind (.query (q := .deliveredType w.src.node w.src.key .root) trivial) fun _ =>
    .bind (.query (q := .expectedType w.dest.node w.dest.key .root) trivial) fun _ => .pure _

theorem existing_within (p : PortRef) : (existing p).run.Within Query.AboutTypes right := by
  refine .bindExcept (.lift (Plan.port_within p)) fun port => ?_
  cases port <;> exact .pure _

theorem vacant_within (m : PortMode) {conns : Plan (List Connection)}
    (hc : conns.Within Query.AboutTypes right) {next fail : ExceptT Rejection Plan Unit}
    (hn : next.run.Within Query.AboutTypes right) (hf : fail.run.Within Query.AboutTypes right) :
    (if m = .single then do
      let cs ← (conns : Plan _)
      if cs.isEmpty then next else fail
    else next).run.Within Query.AboutTypes right := by
  split
  · refine .bindExcept (.lift hc) fun cs => ?_
    split
    · exact hn
    · exact hf
  · exact hn

theorem checkCardinality_within (w : Wire) (src dest : PortMode) :
    (w.checkCardinality src dest).run.Within Query.AboutTypes right := by
  have done : (pure () : ExceptT Rejection Plan Unit).run.Within Query.AboutTypes right := .pure _
  have refuse (r : Rejection) :
      (throw r : ExceptT Rejection Plan Unit).run.Within Query.AboutTypes right := .pure _
  have hsrc := vacant_within src (.query (q := .connectionsFrom w.src.node w.src.key) trivial) done
    (refuse (.cardinality (.exhausted w.src)))
  have hdest := vacant_within dest (.query (q := .connectionsInto w.dest.node w.dest.key) trivial)
    hsrc (.bindExcept (refuse (.cardinality (.occupied w.dest))) fun _ => hsrc)
  unfold checkCardinality
  dsimp only
  split
  · exact .bindExcept (refuse _) fun _ => hdest
  · exact hdest

theorem check_within (g : Graph) (p q : PortRef) :
    (check g p q).run.Within Query.AboutTypes right := by
  unfold check
  refine .bindExcept ?_ fun w => ?_
  · cases ofPorts p q <;> exact .pure _
  refine .bindExcept (existing_within w.src) fun src => ?_
  refine .bindExcept (existing_within w.dest) fun dest => ?_
  refine .bindExcept (checkCardinality_within w _ _) fun _ => ?_
  split
  · refine .bindExcept (.pure _) fun _ => .bindExcept (.lift w.disagreement?_within) fun r => ?_
    cases r <;> exact .pure _
  · refine .bindExcept (.lift w.disagreement?_within) fun r => ?_
    cases r <;> exact .pure _

end Wire

theorem Graph.invalidConnections_within (g : Graph) :
    g.invalidConnections.Within Query.AboutTypes right :=
  .bind (.mapM fun _ _ => .bind (Wire.disagreement?_within _) fun _ => .pure _) fun _ => .pure _

theorem Session.connectionsPlan_within (p : PortRef) :
    (connectionsPlan p).Within Query.AboutTypes right := by
  refine .bind (Plan.port_within p) fun port => ?_
  cases port with
  | error failure => exact .pure _
  | ok port =>
    dsimp only
    split
    · exact .bind (.query (q := .connectionsFrom p.node p.key) trivial) fun _ => .pure _
    · exact .bind (.query (q := .connectionsInto p.node p.key) trivial) fun _ => .pure _

namespace Typing

theorem wireFindings_within (n : Node) (s : PortSpec) :
    (wireFindings n s).Within Query.AboutTypes right :=
  .bind (.query (q := .connectionsInto n.id s.key) trivial) fun _ =>
    .bind (.mapM fun c _ =>
      .bind (.query (q := .deliveredType c.src.node c.src.key .root) trivial) fun _ =>
        .bind (.query (q := .expectedType n.id s.key .root) trivial) fun _ => .pure _)
      fun _ => .pure _

theorem checkNode_within (c : Catalogue) (t : Typing) (n : Node) :
    (checkNode c t n).Within Query.AboutTypes right := by
  unfold checkNode
  split
  · exact .pure _
  refine .bind (Plan.suppliers_within fun _ => trivial) fun _ => ?_
  refine .bind (.mapM fun s _ => ?_) fun _ => ?_
  · exact .bind (.query (q := .deliveredType n.id s.key .root) trivial) fun _ => .pure _
  · exact .bind (.mapM fun s _ => wireFindings_within n s) fun _ => .pure _

theorem checkAll_within (c : Catalogue) (t : Typing) (ids : List NodeId) :
    (checkAll c t ids).Within Query.AboutTypes right := by
  induction ids generalizing t with
  | nil => exact .pure _
  | cons id ids ih =>
    refine .bind (.query (q := .node id) trivial) fun n => ?_
    cases n with
    | none => exact ih t
    | some n => exact .bind (checkNode_within c t n) fun t => ih t

theorem check_within (c : Catalogue) (g : Graph) :
    (check c g).Within Query.AboutTypes right := by
  unfold check
  split
  · exact checkAll_within ..
  · exact .pure _

end Typing

/-! ## Answers of a session -/

namespace Session

variable {s : Session}

/-- The session with all that it remembers gone. -/
def forget (s : Session) : Session := { s with table := .empty s.config.tracksStatistics }

theorem perform_forget (h : s.Reached) (hc : s.catalogue.Typed) {α : Type} {p : Plan α}
    (hp : p.Within Query.AboutTypes (s.engine.Right .last)) :
    (perform p s).1 = (perform p s.forget).1 :=
  (Engine.typesDomain hc fun _ => id).perform_fst hp (h.remembers.sound hc)
    ((Remembers.of_empty (s := s.forget) rfl).sound hc)

/-- What is seen at a depth that is enough is seen of a session. -/
theorem perform_map_eq {α β : Type} {d : Nat} {p : Plan α} (f : α → β) {b : β}
    (h : (p.run (s.engine.answer d []) s.table).map (fun r => f r.1) = some b) :
    f (perform p s).1 = b :=
  Engine.perform_map_eq f h

theorem performAt_fst {α : Type} (id : NodeId) (p : Plan α) (s : Session) :
    (performAt id p s).1 = (s.graph.requireNode id).bind fun _ => .ok (perform p s).1 := by
  simp only [performAt, bind, StateT.bind, get, getThe, MonadStateOf.get, StateT.get, pure]
  cases s.graph.requireNode id <;> rfl

theorem ports_fst (id : NodeId) (s : Session) : (ports id s).1 =
    match (perform (Plan.query (.ports id)) s).1 with
    | some ps => .ok ps
    | none => .error (.nodeNotFound id) := by
  change ((match (perform (Plan.query (.ports id)) s).1 with
    | some ps => pure (.ok ps)
    | none => pure (.error (.nodeNotFound id)) : StateM Session (Except GraphError (List Port)))
    (perform (Plan.query (.ports id)) s).2).1 = _
  cases (perform (Plan.query (.ports id)) s).1 <;> rfl

theorem performAt_forget (h : s.Reached) (hc : s.catalogue.Typed) {α : Type}
    {p : Plan α} (hp : p.Within Query.AboutTypes (s.engine.Right .last)) (id : NodeId) :
    (performAt id p s).1 = (performAt id p s.forget).1 := by
  rw [performAt_fst, performAt_fst, perform_forget h hc hp]
  rfl

/-- Types, ports, connections and the verdicts on them are answered as if nothing was remembered,
whatever the session has gone through: by `perform_forget`, as all of them ask about types alone,
and what is remembered of these is right (`Reached.remembers`). For this the kinds of nodes have to
find types by questions about types, as `Catalogue.Typed` says. -/
theorem answers_about_types_forget (h : s.Reached) (hc : s.catalogue.Typed) :
    (∀ id key, (deliveredType id key s).1 = (deliveredType id key s.forget).1) ∧
      (∀ id key, (expectedType id key s).1 = (expectedType id key s.forget).1) ∧
      (∀ id, (ports id s).1 = (ports id s.forget).1) ∧
      (∀ p, (connectionsAt p s).1 = (connectionsAt p s.forget).1) ∧
      (invalidConnections s).1 = (invalidConnections s.forget).1 ∧
      (typing s).1 = (typing s.forget).1 := by
  refine ⟨fun id key => ?_, fun id key => ?_, fun id => ?_,
    fun p => perform_forget h hc (connectionsPlan_within p),
    perform_forget h hc s.graph.invalidConnections_within,
    perform_forget h hc (Typing.check_within s.catalogue s.graph)⟩
  · exact performAt_forget h hc (.query (q := .deliveredType id key .root) trivial) id
  · exact performAt_forget h hc (.query (q := .expectedType id key .root) trivial) id
  · rw [ports_fst, ports_fst, perform_forget h hc (.query (q := .ports id) trivial)]

/-- Two nodes that feed each other, after their types were checked and one of them was removed. -/
def ring : Session :=
  let collect (id : NodeId) : Node := ⟨id, "Core", "Collect", ∅, NodeDefinition.collect.ports⟩
  let wire (k a b : Nat) : Connection :=
    ⟨⟨k⟩, ⟨⟨a⟩, "output", .output, 0⟩, ⟨⟨b⟩, "input", .input, 0⟩⟩
  let s := (load ⟨"ring", 1, [collect ⟨0⟩, collect ⟨1⟩], [wire 0 0 1, wire 1 1 0]⟩
    (start .default .builtin)).2
  let s := (deliveredType ⟨0⟩ "output" (invalidConnections s).2).2
  (editAll [.change (.removeNode ⟨1⟩) false] s).2

theorem ring_answers_forget :
    (deliveredType ⟨0⟩ "output" ring).1 = (deliveredType ⟨0⟩ "output" ring.forget).1 ∧
      (typing ring).1 = (typing ring.forget).1 := by
  have h : ring.Reached := .editAll _ (.perform (Plan.deliveredType ⟨0⟩ "output" .root)
    (.perform (Graph.invalidConnections _) (.load _ (.start ..))))
  obtain ⟨hd, -, -, -, -, ht⟩ := answers_about_types_forget h Catalogue.builtin_typed
  exact ⟨hd ⟨0⟩ "output", ht⟩

end Session

end Dataflow
