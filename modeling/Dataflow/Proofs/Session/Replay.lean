import Dataflow.Proofs.Engine.Run
import Dataflow.Proofs.Session.Batch

/-! Batches whose questions are answered at a depth that is given beforehand.

Where this depth is enough a batch comes to the same as one that looks for it. -/

namespace Dataflow

open Memo (Table)

variable {d : Nat} {e : Edit}

/-- Makes a step; only a connection asks questions. -/
def Edit.applyWithin (d : Nat) (e : Edit) :
    Step → Option (Except GraphError Change.Result × Edit)
  | .change (.connect p q) _ => do
    let (verdict, t) ← (Wire.check e.graph p q).run.run (e.engine.answer d []) e.scratch
    return e.after (e.graph.join verdict, t)
  | st => some (st.apply.run e)

theorem Edit.apply_of_within {st : Step} {r : Except GraphError Change.Result × Edit}
    (h : e.applyWithin d st = some r) : st.apply.run e = r := by
  unfold applyWithin at h
  split at h
  next p q _ =>
    obtain ⟨⟨verdict, t⟩, hv, hr⟩ := Option.bind_eq_some_iff.1 h
    have hv : e.engine.perform (Wire.check e.graph p q).run e.scratch = (verdict, t) :=
      Engine.perform_eq hv
    rw [← Option.some.inj hr]
    exact (apply_run (.connect p q) e).trans
      (congrArg (fun r : Except Rejection Wire × Table => e.after (e.graph.join r.1, r.2)) hv)
  next => exact Option.some.inj h

def Step.applyAllWithin (d : Nat) : List Step → Edit → Option (Batch × Edit)
  | [], e => some (⟨[], none⟩, e)
  | st :: sts, e => do
    let (r, e) ← e.applyWithin d st
    match r, st.mayFail with
    | .error failure, false => return (⟨[.error failure], some failure⟩, e)
    | r, _ =>
      let (b, e) ← applyAllWithin d sts e
      return ({ b with results := r :: b.results }, e)

theorem Step.applyAll_of_within {sts : List Step} {r : Batch × Edit}
    (h : applyAllWithin d sts e = some r) : applyAll sts e = r := by
  induction sts generalizing e r with
  | nil => exact Option.some.inj h
  | cons st sts ih =>
    obtain ⟨⟨x, e'⟩, hx, h⟩ := Option.bind_eq_some_iff.1 h
    have hx := Edit.apply_of_within hx
    have hfst : (st.apply.run e).1 = x := congrArg Prod.fst hx
    have hsnd : (st.apply.run e).2 = e' := congrArg Prod.snd hx
    rcases st.goesOn_or_stops x with hgo | ⟨hm, failure, rfl⟩
    · have h : (applyAllWithin d sts e').bind (fun be =>
          some ({ be.1 with results := x :: be.1.results }, be.2)) = some r := by
        rcases hgo with hm | ⟨a, rfl⟩
        · rw [← h, hm]
          cases x <;> rfl
        · exact h
      obtain ⟨⟨b, e''⟩, hb, h⟩ := Option.bind_eq_some_iff.1 h
      rw [applyAll_go (hfst ▸ hgo), hfst, hsnd, ih hb, ← Option.some.inj h]
    · rw [hm] at h
      rw [applyAll_stop hfst hm, hsnd, ← Option.some.inj h]

/-- What a batch that is kept makes of the graph. -/
theorem Session.editAll_of_within {α : Type} {a : α} (f : Graph → α) (steps : List Step)
    (s : Session)
    (h : (Step.applyAllWithin d steps s.openEdit).map (fun r => (r.1.failure.isNone, f r.2.graph)) =
      some (true, a)) : f (editAll steps s).2.graph = a := by
  obtain ⟨⟨b, e⟩, hr, hf⟩ := Option.map_eq_some_iff.1 h
  obtain ⟨hb, rfl⟩ := Prod.mk.inj hf
  have hr := Step.applyAll_of_within hr
  have hb : (editAll steps s).1.failure.isNone :=
    (congrArg (fun r => r.1.failure.isNone) hr).trans hb
  rw [editAll_snd, if_pos hb, hr, commit_graph]

end Dataflow
