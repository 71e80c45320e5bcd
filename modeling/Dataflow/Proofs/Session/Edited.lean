import Dataflow.Proofs.Graph.Cardinality
import Dataflow.Proofs.Session.Reached
import Dataflow.Proofs.Session.Replay

/-! Sessions that have come to be by changes alone, never by a snapshot (`Edited`): each of their
connections keeps to the modes of the ports it joins (`Edited.fitted`). -/

namespace Dataflow

open Memo (Table)

namespace Session

/-- Reached from the empty session without a snapshot, with catalogues of `C` all the way. -/
inductive Edited (C : Catalogue → Prop) : Session → Prop
  | start (config : Config) {catalogue : Catalogue} (hc : C catalogue) :
    Edited C (.start config catalogue)
  | register {s : Session} (name : String) (m : Module) (hc : C (s.catalogue.register name m)) :
    Edited C s → Edited C (s.register name m)
  | editAll {s : Session} (steps : List Step) : Edited C s → Edited C (editAll steps s).2
  | perform {s : Session} {α : Type} (p : Plan α) : Edited C s → Edited C (perform p s).2
  | setPending {s : Session} (p : Option PortRef) : Edited C s → Edited C (setPending p s).2

theorem Edited.reached {C : Catalogue → Prop} {s : Session} (h : s.Edited C) : s.Reached := by
  induction h with
  | start config => exact .start config _
  | register name m _ _ ih => exact .register name m ih
  | editAll steps _ ih => exact .editAll steps ih
  | perform p _ ih => exact .perform p ih
  | setPending p _ ih => exact .setPending p ih

end Session

/-! ## A change keeps to the modes -/

section Change

variable {o : Precedence} {e : Engine} {t : Table} {c : Change} {f : Effect}

/-- A change that connects nothing leaves no new connection, and the ports at the ends of the old
ones as they were. -/
theorem Move.stays (m : Move e t c f) (hg : e.graph.WellFormed) (hc : ∀ p q, c ≠ .connect p q)
    {k : ConnectionId} {d : Connection} (hd : f.graph.connection? k = some d) :
    e.graph.connection? k = some d ∧ ∀ a, Graph.Touches d a →
      (f.graph.node? a).map Node.ports = (e.graph.node? a).map Node.ports := by
  cases m with
  | addNode =>
    refine ⟨hd, fun a ha => congrArg _ ((Graph.node?_insert ..).trans (if_neg fun hn => ?_))⟩
    have hnext := hg.ends (show e.graph.connection? k = some d from hd) ha
    rw [hn, hg.not_node_next] at hnext
    cases hnext
  | @removeNode id n hn =>
    obtain ⟨hd, ht⟩ := hg.connection?_without_connectionsOf.1 hd
    refine ⟨hd, fun a ha => ?_⟩
    have hne : a ≠ id := fun h => ht (h ▸ ha)
    rw [Graph.node?_without, if_neg hne]
  | connect hw _ => exact absurd rfl (hc _ _)
  | disconnect _ =>
    rw [Graph.connection?_severed] at hd
    split at hd
    · cases hd
    · exact ⟨hd, fun _ _ => rfl⟩
  | setParam hn =>
    refine ⟨hd, fun a _ => (congrArg _ (Graph.node?_insert ..)).trans ?_⟩
    split
    next h =>
      rw [h, hn]
      rfl
    next => rfl

theorem Move.fitted (m : Move e t c f) (hg : e.graph.WellFormed)
    (ht : e.Sound o Query.AboutStore t) (h : e.graph.Fitted) : f.graph.Fitted := by
  by_cases hc : ∃ p q, c = .connect p q
  · obtain ⟨p, q, rfl⟩ := hc
    cases m with
    | connect hw hc =>
      obtain ⟨s, t, hw⟩ := Engine.admitted_of_check hg ht hw
      rw [Graph.insertConnection_eq hw.src hw.dest] at hc
      obtain ⟨rfl, -⟩ := Prod.mk.inj (Except.ok.inj hc)
      exact h.joined hg hw rfl rfl
  · refine h.of_subset fun hd => ?_
    obtain ⟨hd, hports⟩ := m.stays hg (fun p q he => hc ⟨p, q, he⟩) hd
    exact ⟨hd, Graph.resolve_congr (hports _ (.inl rfl)), Graph.resolve_congr (hports _ (.inr rfl))⟩

/-- A batch on its way: its graph keeps to the modes, and what it remembers of the graph is right.
-/
structure Edit.Fits (e : Edit) : Prop where
  wellFormed : e.graph.WellFormed
  sound : e.engine.Sound .last Query.AboutStore e.scratch
  fitted : e.graph.Fitted

theorem Edit.Fits.apply {e : Edit} (h : e.Fits) (c : Change) : (c.apply.run e).2.Fits := by
  have ht := apply_sound Engine.storeDomain Engine.store_apart h.sound c
  rcases apply_cases c e h.wellFormed with ⟨f, t, hm, he⟩ | ⟨failure, t, he⟩
  · rw [he] at ht ⊢
    exact ⟨hm.wellFormed h.wellFormed, ht, hm.fitted h.wellFormed h.sound h.fitted⟩
  · rw [he] at ht ⊢
    exact ⟨h.wellFormed, ht, h.fitted⟩

end Change

/-! ## Sessions keep to the modes -/

namespace Session

variable {s : Session} {C : Catalogue → Prop}

theorem editAll_fitted (hg : s.graph.WellFormed) (h : s.graph.Fitted) (steps : List Step) :
    (editAll steps s).2.graph.Fitted := by
  have start : s.openEdit.Fits := ⟨hg, .of_empty rfl, h⟩
  obtain ⟨e, he, heq⟩ := editAll_keeps hg (fun c _ h => h.apply c) steps start
  exact heq ▸ he.fitted

theorem Edited.fitted (h : s.Edited C) : s.graph.Fitted := by
  induction h with
  | start => exact Graph.fitted_empty
  | register _ _ _ _ ih => exact ih
  | editAll steps hs ih => exact editAll_fitted hs.reached.wellFormed ih steps
  | perform _ _ ih => exact ih
  | setPending _ _ ih => exact ih

/-- However a session has been edited, each of its connections joins a declared output to a declared
input or property, not both of them for many connections; a single port has no other connection
besides, and a single destination has it at slot zero; and no two connections share a slot.

All of this is in `Graph.Fitted`, which by `Edited.fitted` holds of the graph. -/
theorem connections_keep_modes (h : s.Edited C) :
    (∀ c ∈ s.graph.connectionList, ∃ src dest,
      s.graph.resolve c.src = .ok src ∧ s.graph.resolve c.dest = .ok dest ∧
        c.src.role = .output ∧ (c.dest.role = .input ∨ c.dest.role = .property) ∧
        ¬(src.mode = .multiple ∧ dest.mode = .multiple) ∧
        (dest.mode = .single → c.dest.slot = 0)) ∧
      s.graph.connectionList.Pairwise fun c d =>
        (c.src.sameGroup d.src →
          ∀ src, s.graph.resolve c.src = .ok src → src.mode ≠ .single) ∧
        (c.dest.sameGroup d.dest → c.dest.slot ≠ d.dest.slot ∧
          ∀ dest, s.graph.resolve c.dest = .ok dest → dest.mode ≠ .single) := by
  have hg := h.reached.wellFormed
  have hf := h.fitted
  refine ⟨fun c hc => ?_, hg.pairwise_connectionList.imp_of_mem fun {c d} hc hd hne => ?_⟩
  · rw [hg.mem_connectionList] at hc
    obtain ⟨hrole, src, hsrc⟩ := hf.source hc
    obtain ⟨hrole', dest, hdest⟩ := hf.target hc
    exact ⟨src, dest, hsrc, hdest, hrole, hrole', hf.bounded hc hsrc hdest, hf.slot_zero hc hdest⟩
  · rw [hg.mem_connectionList] at hc hd
    refine ⟨fun hcd src hsrc hm => hne (hf.exclusive hc hd hcd hsrc hm), fun hcd =>
      ⟨fun hslot => ?_, fun dest hdest hm => hne (hf.single hc hd hcd hdest hm)⟩⟩
    obtain ⟨hn, hk, hr⟩ := PortRef.sameGroup_iff.1 hcd
    refine hne (hf.slots hc hd ?_)
    cases hcd : c.dest
    cases hdd : d.dest
    simp_all

/-- A number feeds an array twice, the second time where the first connection is already. -/
def deskSteps : List Step :=
  let wire : Step := .change (.connect ⟨⟨0⟩, "output", .output, 0⟩ ⟨⟨1⟩, "input", .input, 0⟩) false
  [.change (.addNode "Core" "Number" ∅) false, .change (.addNode "Core" "Array" ∅) false, wire,
    wire]

def desk : Session := (editAll deskSteps (start .default .builtin)).2

/-- The two connections stand at different slots. -/
theorem desk_keeps_modes : desk.graph.connectionList.map (·.dest.slot) = [0, 1] ∧
    desk.graph.connectionList.Pairwise fun c d =>
      c.dest.sameGroup d.dest → c.dest.slot ≠ d.dest.slot := by
  have h : desk.Edited fun _ => True := .editAll _ (.start _ trivial)
  refine ⟨?_, (connections_keep_modes h).2.imp fun hcd hgroup => (hcd.2 hgroup).1⟩
  refine editAll_of_within (d := 8) (fun g => g.connectionList.map (·.dest.slot)) deskSteps
    (start .default .builtin) ?_
  decide +kernel

end Session

end Dataflow
