import Dataflow.Proofs.Session.Batch

/-! The sessions that can come to be (`Reached`): by batches that are kept or taken back, by new
modules, by snapshots whatever they hold, and by questions of all kinds, in any order. -/

namespace Dataflow.Session

/-- Every question of a session carries out some plan, so that `perform` stands for all of them. -/
inductive Reached : Session → Prop
  | start (config : Config) (catalogue : Catalogue) : Reached (.start config catalogue)
  | register {s : Session} (name : String) (m : Module) : Reached s → Reached (s.register name m)
  | editAll {s : Session} (steps : List Step) : Reached s → Reached (editAll steps s).2
  | load {s : Session} (snapshot : Snapshot) : Reached s → Reached (load snapshot s).2
  | perform {s : Session} {α : Type} (p : Plan α) : Reached s → Reached (perform p s).2
  | setPending {s : Session} (p : Option PortRef) : Reached s → Reached (setPending p s).2

theorem load_graph (snapshot : Snapshot) (s : Session) :
    (load snapshot s).2 = s ∨ (load snapshot s).2.graph = snapshot.toGraph := by
  unfold load
  split
  · exact .inl rfl
  · exact .inr rfl

theorem Reached.wellFormed {s : Session} (h : Reached s) : s.graph.WellFormed := by
  induction h with
  | start => exact .empty
  | register _ _ _ ih => exact ih
  | editAll steps _ ih => exact editAll_wellFormed ih steps
  | @load s snapshot _ ih =>
    rcases load_graph snapshot s with hl | hl
    · rw [hl]
      exact ih
    · rw [hl]
      exact .ofParts ..
  | perform _ _ ih => exact ih
  | setPending _ _ ih => exact ih

end Dataflow.Session
