import Dataflow.Proofs.Engine.Inference
import Dataflow.Proofs.Session.Feedback
import Dataflow.Proofs.Session.Stepwise

/-! Sessions over the kinds of nodes that there are from the outset, changed by batches alone: what
every graph of such a session is like (`Edited.proper`), and what one accepted connection makes of
it (`connect_ok`). -/

namespace Dataflow

open Memo (Table)

/-! ## Nodes have the ports of their kinds -/

/-- Every node has the ports of its kind. -/
def Graph.KeepsPorts (g : Graph) (catalogue : Catalogue) : Prop :=
  ∀ {id n}, g.node? id = some n → n.ports = (catalogue.definitionOf n).ports

/-- Every node has the ports that its kind has in some catalogue of `C`. -/
def Graph.PortsFrom (g : Graph) (C : Catalogue → Prop) : Prop :=
  ∀ id n, g.node? id = some n → ∃ c, C c ∧ n.ports = (c.definitionOf n).ports

theorem Graph.portsFrom_empty (C : Catalogue → Prop) : Graph.empty.PortsFrom C := by
  intro id n hn
  simp [Graph.empty, node?] at hn

theorem Move.portsFrom {C : Catalogue → Prop} {e : Engine} {t : Table} {c : Change} {f : Effect}
    (m : Move e t c f) (hC : C e.catalogue) (h : e.graph.PortsFrom C) : f.graph.PortsFrom C := by
  intro id n hn
  cases m with
  | addNode =>
    have hn := (Graph.node?_insert ..).symm.trans hn
    split at hn
    · cases hn
      exact ⟨e.catalogue, hC, rfl⟩
    · exact h id n hn
  | removeNode _ =>
    rw [Graph.node?_without] at hn
    split at hn
    · cases hn
    · exact h id n hn
  | connect _ _ => exact h id n hn
  | disconnect _ => exact h id n hn
  | setParam hm =>
    have hn := (Graph.node?_insert ..).symm.trans hn
    split at hn
    · cases hn
      obtain ⟨c, hc, hp⟩ := h _ _ hm
      exact ⟨c, hc, hp⟩
    · exact h id n hn

namespace Session

variable {s : Session} {p q : PortRef} {c : Connection}

theorem editAll_catalogue (steps : List Step) (s : Session) :
    (editAll steps s).2.catalogue = s.catalogue ∧ (editAll steps s).2.config = s.config := by
  rw [editAll_snd]
  split
  · exact commit_catalogue _
  · exact ⟨rfl, rfl⟩

/-- Batches change nothing but the graph. -/
theorem editAll_engine (steps : List Step) (s : Session) :
    (editAll steps s).2.engine = ⟨(editAll steps s).2.graph, s.catalogue, s.config.limit⟩ := by
  rw [engine, (editAll_catalogue steps s).1, (editAll_catalogue steps s).2]

theorem editAll_openEdit (steps : List Step) (s : Session) : (editAll steps s).2.openEdit =
    .start (editAll steps s).2.graph s.catalogue s.config.limit := by
  rw [openEdit, (editAll_catalogue steps s).1, (editAll_catalogue steps s).2]

section Edited

variable {C : Catalogue → Prop}

/-- The catalogue that an edited session has come to is one of those that it may have. -/
theorem Edited.catalogue_mem (h : s.Edited C) : C s.catalogue := by
  induction h with
  | start _ hc => exact hc
  | register _ _ hc _ _ => exact hc
  | editAll steps _ ih => exact (editAll_catalogue ..).1.symm ▸ ih
  | perform _ _ ih => exact ih
  | setPending _ _ ih => exact ih

theorem Edited.catalogue_eq {C : Catalogue} (h : s.Edited (· = C)) : s.catalogue = C :=
  h.catalogue_mem

theorem Edited.acyclic (h : s.Edited C) : s.graph.Acyclic := by
  induction h with
  | start => exact Graph.acyclic_empty
  | register _ _ _ _ ih => exact ih
  | editAll steps hs ih => exact editAll_acyclic hs.reached.wellFormed ih steps
  | perform _ _ ih => exact ih
  | setPending _ _ ih => exact ih

theorem Edited.portsFrom (h : s.Edited C) : s.graph.PortsFrom C := by
  induction h with
  | start => exact Graph.portsFrom_empty C
  | register _ _ _ _ ih => exact ih
  | editAll steps hs ih =>
    refine editAll_preserves (I := (·.PortsFrom C)) hs.reached.wellFormed (fun hc hg hp hf => ?_) ih
      steps
    exact (Change.move hg hf).portsFrom (hc.symm ▸ hs.catalogue_mem) hp
  | perform _ _ ih => exact ih
  | setPending _ _ ih => exact ih

theorem Edited.keepsPorts {C : Catalogue} (h : s.Edited (· = C)) : s.graph.KeepsPorts C := by
  intro id n hn
  obtain ⟨_, rfl, hp⟩ := h.portsFrom id n hn
  exact hp

end Edited

/-- With the kinds of nodes of `Catalogue.builtin`, and without a snapshot, a session has come to a
graph without a cycle whose connections keep to the modes. -/
theorem Edited.proper (h : s.Edited (· = .builtin)) : s.engine.Proper := by
  refine ⟨⟨h.reached.wellFormed, h.acyclic, h.catalogue_eq⟩, h.fitted, ?_⟩
  have hp : s.graph.KeepsPorts .builtin := h.keepsPorts
  rw [← h.catalogue_eq] at hp
  exact @hp

/-! ## One connection -/

theorem connect_snd (p q : PortRef) (s : Session) :
    (connect p q s).2 = (editAll [.change (.connect p q) false] s).2 :=
  ((editAll_change _ s).trans (edit_map_snd ..)).symm

theorem Edited.connect {C : Catalogue → Prop} (h : s.Edited C) (p q : PortRef) :
    (connect p q s).2.Edited C :=
  connect_snd p q s ▸ .editAll _ h

/-- What is made of the graph by a connection that is accepted. -/
theorem connect_ok (hg : s.graph.WellFormed) (h : (connect p q s).1 = .ok c) : ∃ w,
    (s.engine.perform (Wire.check s.graph p q).run (.empty false)).1 = .ok w ∧
      s.graph.insertConnection w.src w.dest = .ok (c, s.graph.joined c) ∧
      (connect p q s).2.graph = s.graph.joined c := by
  rw [connect_fst] at h
  rcases hr : (Edit.connect p q).run s.openEdit with ⟨r, e⟩
  obtain rfl : r = .ok c := (congrArg Prod.fst hr).symm.trans h
  have happly : (Change.connect p q).apply.run s.openEdit = (.ok (.connection c), e) := by
    rw [Change.apply, EditM.run_map, hr]
  have hgraph : (connect p q s).2.graph = e.graph := by
    rw [connect, edit_run, hr]
    exact commit_graph e
  rcases Edit.apply_cases (.connect p q) s.openEdit hg with ⟨f, t, hm, he⟩ | ⟨failure, t, he⟩
  · obtain ⟨hres, rfl⟩ := Prod.mk.inj (happly.symm.trans he)
    cases hm with
    | connect hw hc =>
      cases hres
      exact ⟨_, hw, hc, hgraph⟩
  · cases (Prod.mk.inj (happly.symm.trans he)).1

theorem connect_engine (hg : s.graph.WellFormed) (hok : (connect p q s).1 = .ok c) :
    (connect p q s).2.engine = ⟨s.graph.joined c, s.catalogue, s.config.limit⟩ := by
  obtain ⟨_, -, -, hgraph⟩ := connect_ok hg hok
  rw [← hgraph, connect_snd]
  exact editAll_engine _ s

end Session

end Dataflow
