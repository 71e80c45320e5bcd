import Dataflow.Proofs.Memo.History
import Dataflow.Proofs.Session.Reporting

/-! Whatever a session has gone through, a batch of changes drops the answers that have read a node
which it touched, and no others: in a session no answer ever takes the place of another, so that
nothing is superseded (`Reached.superseded`). -/

namespace Dataflow.Session

open Memo (Table Key Entry)

variable {s : Session}

theorem superseded_commit (h : s.table.superseded = ∅) (e : Edit) :
    (s.commit e).table.superseded = ∅ := by
  unfold commit
  dsimp only
  split
  · exact h
  · exact Table.superseded_invalidate h _

theorem Reached.superseded (h : s.Reached) : s.table.superseded = ∅ := by
  induction h with
  | start => rfl
  | register => rfl
  | @editAll s steps hs ih =>
    have ht := tracks_openEdit hs.wellFormed steps
    rw [editAll_snd]
    split
    · exact superseded_commit ih _
    · rw [abandon_eq ht]
      exact ih
  | load snapshot _ ih =>
    unfold Session.load
    split
    · exact ih
    · rfl
  | perform p hs ih => exact ((Engine.perform_retains _ p _).superseded hs.fits).trans ih
  | setPending _ _ ih => exact ih

/-- A batch that is kept drops the answers that have read a node which it touched, and no others, by
`Table.getElem?_invalidate_of_superseded`. -/
theorem getElem?_commit (h : s.Reached) (e : Edit) {k : Key} {en : Entry}
    (hen : s.table.entries[k]? = some en) : (s.commit e).table.entries[k]? =
      if ∃ id ∈ e.touched.toList, id ∈ en.reads then none else some en := by
  unfold commit
  dsimp only
  split
  next hempty =>
    rw [Std.ExtTreeSet.isEmpty_iff.1 hempty, if_neg (by simp)]
    exact hen
  next => exact Table.getElem?_invalidate_of_superseded h.superseded e.touched.toList hen

end Dataflow.Session
