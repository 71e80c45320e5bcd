import Dataflow.Proofs.Engine.Reply
import Dataflow.Proofs.Session.Edited
import Dataflow.Proofs.Session.Types
import Dataflow.Proofs.Typing

/-! The check of all types and the audit of the connections.

The check looks only at what comes in at declared ports from declared ports (`Typing.Passes`), the
audit at every connection (`Graph.invalidConnections`). -/

namespace Dataflow

variable {answer : (q : Query) → q.Answer} {g : Graph} {c : Connection} {r : Rejection}

theorem Wire.disagreement?_eq_none {w : Wire} : w.disagreement?.eval answer = none ↔
    (answer (.deliveredType w.src.node w.src.key .root)).unifies
      (answer (.expectedType w.dest.node w.dest.key .root)) := by
  have verdict {delivered expected : ValueType} {r : Rejection} :
      (if delivered.unifies expected then none else some r) = none ↔
        delivered.unifies expected := by
    cases delivered.unifies expected <;> simp
  simp only [disagreement?, Plan.eval_bind, Plan.eval_deliveredType, Plan.eval_expectedType,
    Plan.eval_pure]
  exact verdict

theorem Graph.mem_invalidConnections :
    (c, r) ∈ g.invalidConnections.eval answer ↔
      c ∈ g.connectionList ∧ (Wire.disagreement? ⟨c.src, c.dest⟩).eval answer = some r := by
  simp only [invalidConnections, Plan.eval_bind, Plan.eval_mapM, Plan.eval_pure, List.mem_filterMap,
    List.mem_map, id_eq, exists_eq_right, Option.map_eq_some_iff, Prod.mk.injEq]
  constructor
  · rintro ⟨d, hd, r', hr, rfl, rfl⟩
    exact ⟨hd, hr⟩
  · rintro ⟨hc, hr⟩
    exact ⟨c, hc, r, hr, rfl, rfl⟩

theorem Graph.invalidConnections_eq_nil : g.invalidConnections.eval answer = [] ↔
    ∀ c ∈ g.connectionList, (Wire.disagreement? ⟨c.src, c.dest⟩).eval answer = none := by
  simp only [List.eq_nil_iff_forall_not_mem, Prod.forall, mem_invalidConnections, not_and,
    Option.eq_none_iff_forall_ne_some, ne_eq]
  exact forall_congr' fun _ => forall_comm

/-- Where all nodes pass, a declared connection fits. -/
theorem Engine.fits_of_passes {e : Engine} (hg : e.graph.WellFormed)
    (hp : ∀ {id n}, e.graph.node? id = some n → Typing.Passes e.reply n)
    (hc : c ∈ e.graph.connectionList) (hd : e.graph.Declares c) :
    (Wire.disagreement? ⟨c.src, c.dest⟩).eval e.reply = none := by
  obtain ⟨s, hs⟩ := hd.src
  obtain ⟨n, hn, hs, hkey, hrole⟩ := Graph.resolve_mem hs
  obtain ⟨t, ht⟩ := hd.dest
  obtain ⟨m, hm, ht, hkey', hrole'⟩ := Graph.resolve_mem ht
  have hn' := hg.node_id hn
  have hm' := hg.node_id hm
  have hsource : s ∈ n.sources := List.mem_filter.2 ⟨hs, hrole ▸ hd.isSource⟩
  have hdest : t ∈ m.destinations := List.mem_filter.2 ⟨ht, by simp [hrole', hd.isTarget]⟩
  have hdelivered := (hp hn).delivered s hsource
  rw [hn', hkey] at hdelivered
  have hinto : c ∈ e.graph.connectionsInto m.id t.key :=
    hg.mem_connectionsInto.2 ⟨hg.mem_connectionList.1 hc, hm'.symm, hkey'.symm⟩
  have hfits := (hp hm).unifies hdest ((e.reply_connectionsInto ..).symm ▸ hinto) hrole'.symm
    hdelivered
  rw [hm', hkey'] at hfits
  exact Wire.disagreement?_eq_none.2 hfits

theorem Graph.Fitted.declares (h : g.Fitted) {k : ConnectionId} (hc : g.connection? k = some c) :
    g.Declares c where
  isSource := PortRole.isSource_iff.2 (h.source hc).1
  src := (h.source hc).2
  isTarget := PortRole.isSource_eq_false_iff.2 (h.target hc).1
  dest := (h.target hc).2

namespace Session

variable {s : Session} {C : Catalogue → Prop}

theorem perform_eval (h : s.Reached) (hc : s.catalogue.Typed) {α : Type} {p : Plan α}
    (hp : ∀ right, p.Within Query.AboutTypes right) : (perform p s).1 = p.eval s.engine.reply :=
  (Engine.typesDomain (o := .last) hc fun _ => id).perform_eval (hp _) (h.remembers.sound hc)

theorem deliveredType_fst (h : s.Reached) (hc : s.catalogue.Typed) (id : NodeId) (key : String) :
    (deliveredType id key s).1 =
      (s.graph.requireNode id).map fun _ => s.engine.reply (.deliveredType id key .root) := by
  have hperform := perform_eval h hc (p := Plan.deliveredType id key .root) fun _ =>
    .query (q := .deliveredType id key .root) trivial
  rw [deliveredType, performAt_fst, hperform]
  rfl

theorem invalidConnections_eval (h : s.Reached) (hc : s.catalogue.Typed) :
    (invalidConnections s).1 = s.graph.invalidConnections.eval s.engine.reply :=
  perform_eval h hc fun _ => s.graph.invalidConnections_within

theorem typing_eval (h : s.Reached) (hc : s.catalogue.Typed) :
    (typing s).1 = (Typing.check s.catalogue s.graph).eval s.engine.reply :=
  perform_eval h hc fun _ => Typing.check_within ..

theorem passes_of_typing (h : s.Reached) (hc : s.catalogue.Typed)
    (hnone : (typing s).1.diagnostics = []) {id : NodeId} {n : Node}
    (hn : s.graph.node? id = some n) : Typing.Passes s.engine.reply n := by
  rw [typing_eval h hc, Typing.check] at hnone
  split at hnone
  next order horder =>
    exact Typing.passes_of_checkAll Typing.clean_empty hnone (h.wellFormed.mem_order horder hn)
      ((s.engine.reply_node id).trans hn)
  next => cases hnone

/-- Whatever a session has gone through: if the check of all types finds nothing, a connection at
whose ends the types do not fit is one that does not join a declared output to a declared input or
property, as `Graph.Declares` says. For without findings all nodes pass (`passes_of_typing`), and
then a declared connection fits (`Engine.fits_of_passes`). -/
theorem invalid_undeclared (h : s.Reached) (hc : s.catalogue.Typed)
    (hnone : (typing s).1.diagnostics = []) {c : Connection} {r : Rejection}
    (hr : (c, r) ∈ (invalidConnections s).1) : ¬s.graph.Declares c := by
  rw [invalidConnections_eval h hc] at hr
  obtain ⟨hmem, hr⟩ := Graph.mem_invalidConnections.1 hr
  intro hd
  have hnone := Engine.fits_of_passes (e := s.engine) h.wellFormed (passes_of_typing h hc hnone)
    hmem hd
  cases hr.symm.trans hnone

/-! ## A connection that only the audit looks at -/

/-- A text goes into a sum from an output that its node does not have. -/
def stray : Connection := ⟨⟨0⟩, ⟨⟨0⟩, "foo", .output, 0⟩, ⟨⟨1⟩, "lhs", .input, 0⟩⟩

def forged : Session :=
  let text : Node := ⟨⟨0⟩, "Core", "String", (∅ : Params).insert "value" (.text "a"),
    (NodeDefinition.literal .text).ports⟩
  let sum : Node := ⟨⟨1⟩, "Math", "Add", ∅, (NodeDefinition.arithmetic .add).ports⟩
  (load ⟨"forged", 1, [text, sum], [stray]⟩ (start .default .builtin)).2

/-- What does not fit at the stray connection. -/
def strayRejection : Rejection :=
  .typeMismatch stray.src (.mismatch "cannot match String with Number") stray.dest .number

theorem forged_reached : forged.Reached := .load _ (.start ..)

theorem typing_fst (s : Session) :
    (typing s).1 = (s.engine.perform (Typing.check s.catalogue s.graph) s.table).1 := rfl

theorem invalidConnections_fst (s : Session) :
    (invalidConnections s).1 = (s.engine.perform s.graph.invalidConnections s.table).1 := rfl

theorem forged_passes : (typing forged).1.diagnostics = [] := by
  rw [typing_fst]
  exact Engine.perform_map_eq (d := 16) Typing.diagnostics (by decide +kernel)

theorem forged_audit : (invalidConnections forged).1 = [(stray, strayRejection)] := by
  rw [invalidConnections_fst]
  exact Engine.perform_fst_eq (d := 8) (by decide +kernel)

theorem forged_stray : (stray, strayRejection) ∈ (invalidConnections forged).1 ∧
    ¬forged.graph.Declares stray := by
  have h : (stray, strayRejection) ∈ (invalidConnections forged).1 :=
    forged_audit ▸ List.mem_singleton_self _
  exact ⟨h, invalid_undeclared forged_reached Catalogue.builtin_typed forged_passes h⟩

/-- Nothing is found at the nodes, and yet there is a connection at whose ends the types do not
fit. -/
theorem forged_passes_invalid : forged.Reached ∧ forged.catalogue = .builtin ∧
    (typing forged).1.diagnostics = [] ∧ (invalidConnections forged).1 ≠ [] :=
  ⟨forged_reached, rfl, forged_passes, by simp [forged_audit]⟩

/-! ## Sessions without a snapshot -/

/-- In a session that has been edited only, the audit says nothing where the check of all types
finds nothing. -/
theorem Edited.audit_nil (h : s.Edited C) (hc : s.catalogue.Typed)
    (hnone : (typing s).1.diagnostics = []) : (invalidConnections s).1 = [] := by
  rw [invalidConnections_eval h.reached hc, Graph.invalidConnections_eq_nil]
  intro c hmem
  have hg := h.reached.wellFormed
  exact Engine.fits_of_passes (e := s.engine) hg (passes_of_typing h.reached hc hnone) hmem
    (h.fitted.declares (hg.mem_connectionList.1 hmem))

end Session

end Dataflow
