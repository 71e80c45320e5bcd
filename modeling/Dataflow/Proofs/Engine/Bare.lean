import Dataflow.Proofs.Engine.Run

/-! What a table counts, and the generation it is about, have no part in any answer.

`Memo.Table.bare` leaves them out. Each operation of a table commutes with it, so by induction on
the depth every answer does, and by `Engine.ask_cases` every plan that is carried out. -/

namespace Dataflow

open Memo (Table Key)

namespace Memo.Table

variable {t : Table} {k : Key} {a : Answer}

/-- The answers and the frames of the table alone. -/
def bare (t : Table) : Table :=
  { t with statistics := ⟨0, 0, 0, 0⟩, isCounting := false, generation := 0 }

theorem bare_eq_empty (he : t.entries = ∅) (hs : t.superseded = ∅) (hf : t.frames = []) :
    t.bare = .empty false := by
  simp only [bare, empty, he, hs, hf]

theorem bare_onFrame (f : Frame → Frame) : (t.onFrame f).bare = t.bare.onFrame f := by
  unfold onFrame
  rw [show t.bare.frames = t.frames from rfl]
  cases t.frames <;> rfl

theorem bare_count (f : Statistics → Statistics) : (t.count f).bare = t.bare.count f := by
  unfold count
  split <;> rfl

theorem bare_readAll (nodes : NodeSet) : (t.readAll nodes).bare = t.bare.readAll nodes :=
  bare_onFrame _

theorem bare_lookup : t.bare.lookup k = ((t.lookup k).1, (t.lookup k).2.bare) := by
  unfold lookup
  rw [show t.bare.entries = t.entries from rfl]
  cases t.entries[k]? <;> simp only [bare_count, bare_readAll]

theorem bare_leave : t.bare.leave = (t.leave.1, t.leave.2.bare) := by
  unfold leave
  rw [show t.bare.frames = t.frames from rfl]
  cases t.frames with
  | nil => rfl
  | cons top rest =>
    exact congrArg (Prod.mk top) (bare_onFrame (t := { t with frames := rest }) _).symm

theorem bare_finish : t.bare.finish k a = (t.finish k a).bare := by
  simp only [finish, bare_leave, ← bare_count]
  split <;> rfl

end Memo.Table

namespace Engine

variable {α β : Type} {e : Engine} {working : List Key}

/-- What the table counts has no part in the work. -/
def Work.Heedless (x : Work α) : Prop := ∀ t, x t.bare = (x t).map fun r => (r.1, r.2.bare)

theorem run_heedless {ask : (q : Query) → Work q.Answer} (h : ∀ q, (ask q).Heedless) (p : Plan α) :
    Work.Heedless (p.run ask) := by
  induction p with
  | done a => exact fun _ => rfl
  | ask q next ih =>
    intro t
    change (ask q t.bare).bind (fun r => (next r.1).run ask r.2) = ((ask q t).bind _).map _
    rw [h q t]
    cases ask q t with
    | none => rfl
    | some r => exact ih r.1 r.2

theorem remember_heedless {key : Key} {onCycle : α} {wrap : α → Memo.Answer}
    {unwrap : Memo.Answer → Option α} {work : List Key → Work α} (h : ∀ ks, (work ks).Heedless) :
    Work.Heedless (remember key onCycle wrap unwrap working work) := by
  intro t
  simp only [remember, Table.bare_lookup]
  cases (t.lookup key).1.bind unwrap with
  | some a => rfl
  | none =>
    by_cases hw : key ∈ working
    · simp only [hw, if_true, Option.map_some, Table.markCyclic, Table.bare_onFrame]
    · simp only [hw, if_false]
      have henter (t : Table) : t.bare.enter.read key.node = (t.enter.read key.node).bare := rfl
      change (work _ _).bind _ = ((work _ _).bind _).map _
      rw [henter, h]
      cases work (key :: working) ((t.lookup key).2.enter.read key.node) with
      | none => rfl
      | some r => exact congrArg some (congrArg (Prod.mk r.1) Table.bare_finish)

theorem work_heedless {f : List Key → (q : Query) → Work q.Answer} (h : ∀ ks q, (f ks q).Heedless)
    (m : Method α) : (m.work f working).Heedless := by
  intro t
  cases m with
  | known a reads =>
    exact congrArg some (congrArg (Prod.mk a) (Table.bare_readAll reads).symm)
  | plan p => exact run_heedless (h working) p t
  | framed p =>
    change (p.run (f working) t.enter.bare).bind _ = ((p.run (f working) t.enter).bind _).map _
    rw [run_heedless (h working) p]
    cases p.run (f working) t.enter with
    | none => rfl
    | some r =>
      change some ((r.1, r.2.bare.leave.1.reads), r.2.bare.leave.2) = _
      rw [Table.bare_leave]
      rfl
  | remembered early slot p view =>
    change (remember _ _ _ _ _ _ _).bind _ = ((remember _ _ _ _ _ _ _).bind _).map _
    rw [← Table.bare_readAll, remember_heedless fun ks => run_heedless (h ks) p]
    cases remember slot.key slot.onCycle slot.wrap slot.unwrap working
      (fun working => p.run (f working)) (t.readAll (slot.early early)) <;> rfl

theorem answer_heedless (depth : Nat) (working : List Key) (q : Query) :
    (e.answer depth working q).Heedless := by
  induction depth generalizing working q with
  | zero => exact fun _ => rfl
  | succ depth ih =>
    rw [answer_succ]
    exact work_heedless ih _

theorem ask_bare (q : Query) (t : Table) :
    e.ask q t.bare = ((e.ask q t).1, (e.ask q t).2.bare) := by
  rcases ask_cases e q t with ⟨k, hk⟩ | ⟨hnone, hk⟩
  · exact ask_eq (by rw [answer_heedless k [] q t, hk]; rfl)
  · rw [hk]
    rcases ask_cases e q t.bare with ⟨k, hk'⟩ | ⟨-, hk'⟩
    · rw [answer_heedless k [] q t, hnone k] at hk'
      cases hk'
    · exact hk'

theorem perform_bare (p : Plan α) (t : Table) :
    e.perform p t.bare = ((e.perform p t).1, (e.perform p t).2.bare) := by
  induction p generalizing t with
  | done a => rfl
  | ask q next ih =>
    change e.perform (next (e.ask q t.bare).1) (e.ask q t.bare).2 = _
    rw [ask_bare]
    exact ih _ _

/-- Two tables with the same answers and frames give the same answers. -/
theorem perform_fst_of_bare (p : Plan α) {t t' : Table} (h : t.bare = t'.bare) :
    (e.perform p t).1 = (e.perform p t').1 := by
  have heq := perform_bare (e := e) p t
  rw [h, perform_bare] at heq
  exact (congrArg Prod.fst heq).symm

end Engine

end Dataflow
