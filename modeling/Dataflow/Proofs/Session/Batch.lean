import Dataflow.Proofs.Session.Effect
import Dataflow.Session.Basic

/-! Batches of changes, step by step: what every change of a batch keeps the batch keeps
(`Step.applyAll_keeps`), and one that fails is taken back without a trace (`editAll_failure`). -/

namespace Dataflow

open Memo (Table)

namespace Step

variable {motive : Edit → Prop} {e : Edit}

/-- Whether a batch goes on after a step with this result. -/
def goesOn (s : Step) (r : Except GraphError Change.Result) : Prop :=
  s.mayFail = true ∨ ∃ a, r = .ok a

theorem run_bind {α β : Type} (x : StateM Edit α) (f : α → StateM Edit β) (e : Edit) :
    (x >>= f) e = f (x e).1 (x e).2 := rfl

theorem applyAll_go {s : Step} (h : s.goesOn (s.apply.run e).1) (ss : List Step) :
    applyAll (s :: ss) e =
      (⟨(s.apply.run e).1 :: (applyAll ss (s.apply.run e).2).1.results,
          (applyAll ss (s.apply.run e).2).1.failure⟩,
        (applyAll ss (s.apply.run e).2).2) := by
  rw [applyAll, run_bind]
  rcases h with h | ⟨a, ha⟩
  · rw [h]
    cases (s.apply.run e).1 <;> rfl
  · rw [ha]
    rfl

theorem applyAll_stop {s : Step} {failure : GraphError} (hr : (s.apply.run e).1 = .error failure)
    (h : s.mayFail = false) (ss : List Step) :
    applyAll (s :: ss) e = (⟨[.error failure], some failure⟩, (s.apply.run e).2) := by
  rw [applyAll, run_bind, hr, h]
  rfl

theorem goesOn_or_stops (s : Step) (r : Except GraphError Change.Result) :
    s.goesOn r ∨ s.mayFail = false ∧ ∃ failure, r = .error failure := by
  unfold goesOn
  cases s.mayFail <;> cases r <;> simp

/-- What every change keeps, a batch of them keeps. -/
theorem applyAll_keeps (step : ∀ (c : Change) (e : Edit), motive e → motive (c.apply.run e).2)
    (ss : List Step) (h : motive e) : motive (applyAll ss e).2 := by
  induction ss generalizing e with
  | nil => exact h
  | cons s ss ih =>
    have hs : motive (s.apply.run e).2 := by
      cases s with
      | change c mayFail => exact step c e h
      | sizes => exact h
    rcases s.goesOn_or_stops (s.apply.run e).1 with hr | ⟨hm, failure, hr⟩
    · rw [applyAll_go hr]
      exact ih hs
    · rw [applyAll_stop hr hm]
      exact hs

end Step

/-! ## Batches on a well-formed graph -/

/-- A batch on its way from a graph: what it made of the graph is well-formed, can be taken back,
and is the same as before at all nodes that are not touched. Every step leaves it so
(`Tracks.applyAll`). -/
structure Edit.Tracks (g : Graph) (e : Edit) : Prop where
  wellFormed : e.graph.WellFormed
  rewinds : e.graph.Rewinds g e.journal
  sameAt : ∀ id ∉ e.touched, e.graph.SameAt g id

namespace Edit

variable {g : Graph} {e : Edit} {c : Change}

theorem mem_touched_follow {f : Effect} {id : NodeId} :
    id ∈ (e.follow f).touched ↔ id ∈ f.touched ∨ id ∈ e.touched :=
  Tables.mem_foldl_insert

/-- A change either makes a move or leaves everything but the table as it is. -/
theorem apply_cases (c : Change) (e : Edit) (hg : e.graph.WellFormed) :
    (∃ f t, Move e.engine e.scratch c f ∧
      c.apply.run e = (.ok f.result, { e with scratch := t }.follow f)) ∨
    ∃ failure t, c.apply.run e = (.error failure, { e with scratch := t }) := by
  rw [apply_run]
  rcases h : c.effect e.engine e.scratch with ⟨r, t⟩
  cases r with
  | ok f => exact .inl ⟨f, t, Change.move hg (congrArg Prod.fst h), rfl⟩
  | error failure => exact .inr ⟨failure, t, rfl⟩

theorem Tracks.start (hg : g.WellFormed) (catalogue : Catalogue) (limit : Nat) :
    (Edit.start g catalogue limit).Tracks g :=
  ⟨hg, .nil g, fun id _ => .refl g id⟩

theorem Tracks.apply (h : e.Tracks g) (c : Change) : (c.apply.run e).2.Tracks g := by
  rcases apply_cases c e h.wellFormed with ⟨f, t, hm, he⟩ | ⟨failure, t, he⟩
  · rw [he]
    refine ⟨hm.wellFormed h.wellFormed, h.rewinds.append (hm.undo h.wellFormed), fun id hid => ?_⟩
    rw [mem_touched_follow, not_or] at hid
    exact (hm.sameAt h.wellFormed hid.1).trans (h.sameAt id hid.2)
  · rw [he]
    exact ⟨h.wellFormed, h.rewinds, h.sameAt⟩

theorem step_wellFormed (hg : e.graph.WellFormed) (st : Step) :
    (st.apply.run e).2.graph.WellFormed := by
  cases st with
  | change c mayFail =>
    rcases apply_cases c e hg with ⟨f, t, hm, he⟩ | ⟨failure, t, he⟩
    · exact (congrArg (fun r => r.2.graph) he) ▸ hm.wellFormed hg
    · exact (congrArg (fun r => r.2.graph) he) ▸ hg
  | sizes => exact hg

theorem Tracks.applyAll (h : e.Tracks g) (ss : List Step) : (Step.applyAll ss e).2.Tracks g :=
  Step.applyAll_keeps (fun c _ h => h.apply c) ss h

/-- A batch on its way over a catalogue, with a property of its graph. -/
structure Holds (C : Catalogue) (I : Graph → Prop) (e : Edit) : Prop where
  catalogue : e.catalogue = C
  wellFormed : e.graph.WellFormed
  holds : I e.graph

section

variable {C : Catalogue} {I : Graph → Prop}
  (step : ∀ {e : Engine} {t : Memo.Table} {c : Change} {f : Effect}, e.catalogue = C →
    e.graph.WellFormed → I e.graph → (c.effect e t).1 = .ok f → I f.graph)

include step

theorem Holds.apply (h : e.Holds C I) (c : Change) : (c.apply.run e).2.Holds C I := by
  rw [apply_run]
  rcases hf : c.effect e.engine e.scratch with ⟨r, t⟩
  cases r with
  | error failure => exact ⟨h.catalogue, h.wellFormed, h.holds⟩
  | ok f =>
    have hf : (c.effect e.engine e.scratch).1 = .ok f := congrArg Prod.fst hf
    exact ⟨h.catalogue, (Change.move h.wellFormed hf).wellFormed h.wellFormed,
      step h.catalogue h.wellFormed h.holds hf⟩

theorem Holds.applyAll (h : e.Holds C I) (ss : List Step) : (Step.applyAll ss e).2.Holds C I :=
  Step.applyAll_keeps (fun c _ h => h.apply step c) ss h

end

end Edit

/-! ## Batches of a session -/

namespace Session

variable {s : Session}

theorem tracks_openEdit (hg : s.graph.WellFormed) (steps : List Step) :
    (Step.applyAll steps s.openEdit).2.Tracks s.graph :=
  (Edit.Tracks.start hg ..).applyAll steps

/-- Taking back a batch leaves no trace. -/
theorem abandon_eq {e : Edit} (h : e.Tracks s.graph) : s.abandon e = s := by
  unfold abandon
  rw [h.rewinds.rollback]

theorem editAll_snd (steps : List Step) (s : Session) :
    (editAll steps s).2 =
      if (editAll steps s).1.failure.isNone then s.commit (Step.applyAll steps s.openEdit).2
      else s.abandon (Step.applyAll steps s.openEdit).2 := rfl

/-- A batch that fails changes nothing: by `abandon_eq`, since its journal leads back
(`Edit.Tracks`). -/
theorem editAll_failure (hg : s.graph.WellFormed) {steps : List Step}
    (h : (editAll steps s).1.failure ≠ none) : (editAll steps s).2 = s := by
  rw [editAll_snd, if_neg (by simpa using h)]
  exact abandon_eq (tracks_openEdit hg steps)

theorem commit_graph (e : Edit) : (s.commit e).graph = e.graph := by
  unfold commit
  split <;> rfl

/-- What every change keeps holds of some batch with the graph that is left in the end. -/
theorem editAll_keeps {motive : Edit → Prop} (hg : s.graph.WellFormed)
    (step : ∀ (c : Change) (e : Edit), motive e → motive (c.apply.run e).2) (steps : List Step)
    (h : motive s.openEdit) : ∃ e, motive e ∧ (editAll steps s).2.graph = e.graph := by
  rw [editAll_snd]
  split
  · exact ⟨_, Step.applyAll_keeps step steps h, commit_graph _⟩
  · exact ⟨s.openEdit, h, by rw [abandon_eq (tracks_openEdit hg steps)]; rfl⟩

/-- So a batch keeps of the graph what every change that succeeds keeps. -/
theorem editAll_preserves {I : Graph → Prop} (hg : s.graph.WellFormed)
    (step : ∀ {e : Engine} {t : Memo.Table} {c : Change} {f : Effect}, e.catalogue = s.catalogue →
      e.graph.WellFormed → I e.graph → (c.effect e t).1 = .ok f → I f.graph)
    (h : I s.graph) (steps : List Step) : I (editAll steps s).2.graph := by
  have start : s.openEdit.Holds s.catalogue I := ⟨rfl, hg, h⟩
  obtain ⟨e, he, heq⟩ := editAll_keeps hg (fun c _ h => h.apply step c) steps start
  exact heq ▸ he.holds

theorem editAll_wellFormed (hg : s.graph.WellFormed) (steps : List Step) :
    (editAll steps s).2.graph.WellFormed := by
  rw [editAll_snd]
  split
  · rw [commit_graph]
    exact (tracks_openEdit hg steps).wellFormed
  · rw [abandon_eq (tracks_openEdit hg steps)]
    exact hg

end Session

end Dataflow
