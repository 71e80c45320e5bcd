import Dataflow.Proofs.Session.Stepwise

/-! The counters of a session along a run of batches and snapshots.

The generation counts the changes that are kept, but a snapshot that is taken over starts it from
zero again: only in between does it tell one graph from another. The version goes on through all of
these, up to its last value. What holds from one moment to a later one is `Follows`. -/

namespace Dataflow

open Memo (Table)

theorem Move.generation {e : Engine} {t : Table} {c : Change} {f : Effect} (m : Move e t c f) :
    f.graph.generation = e.graph.generation + 1 := by
  cases m <;> rfl

/-! ## Counting changes -/

/-- How many of the steps are changes that were made. -/
def Step.changesIn (steps : List Step) (results : List (Except GraphError Change.Result)) : Nat :=
  (steps.zip results).countP fun r => r.1.changed r.2

/-- How many changes a batch of these steps has made of the session. -/
def Batch.kept (steps : List Step) (b : Batch) : Nat :=
  if b.failure.isNone then Step.changesIn steps b.results else 0

section

variable {e : Edit}

theorem Step.changesIn_cons (st : Step) (steps : List Step) (r : Except GraphError Change.Result)
    (results : List (Except GraphError Change.Result)) :
    changesIn (st :: steps) (r :: results) =
      changesIn steps results + if st.changed r then 1 else 0 := by
  simp [changesIn, List.countP_cons]

theorem Edit.step_counts (hg : e.graph.WellFormed) (st : Step) :
    (st.apply.run e).2.graph.generation =
        e.graph.generation + (if st.changed (st.apply.run e).1 then 1 else 0) ∧
      (st.changed (st.apply.run e).1 = false → (st.apply.run e).2.graph = e.graph) := by
  cases st with
  | sizes => exact ⟨rfl, fun _ => rfl⟩
  | change c mayFail =>
    have hrun : (Step.change c mayFail).apply.run e = c.apply.run e := rfl
    rw [hrun]
    rcases apply_cases c e hg with ⟨f, t, hm, he⟩ | ⟨failure, t, he⟩
    · rw [he]
      exact ⟨hm.generation, fun h => by cases h⟩
    · rw [he]
      exact ⟨rfl, fun _ => rfl⟩

theorem Step.applyAll_counts (hg : e.graph.WellFormed) (steps : List Step) :
    (applyAll steps e).2.graph.generation =
        e.graph.generation + changesIn steps (applyAll steps e).1.results ∧
      (changesIn steps (applyAll steps e).1.results = 0 →
        (applyAll steps e).2.graph = e.graph) := by
  induction steps generalizing e with
  | nil => exact ⟨rfl, fun _ => rfl⟩
  | cons st steps ih =>
    obtain ⟨hgen, hsame⟩ := Edit.step_counts hg st
    rcases st.goesOn_or_stops (st.apply.run e).1 with hgo | ⟨hm, failure, hstop⟩
    · obtain ⟨hgens, hsames⟩ := ih (Edit.step_wellFormed hg st)
      rw [applyAll_go hgo, changesIn_cons]
      refine ⟨by dsimp only; omega, fun h => ?_⟩
      obtain ⟨hnone, hone⟩ := Nat.add_eq_zero_iff.1 h
      exact (hsames hnone).trans (hsame (by simpa using hone))
    · have hunchanged : st.changed (.error failure) = false := by cases st <;> rfl
      rw [hstop, hunchanged] at hgen hsame
      have hnone : changesIn (st :: steps) [.error failure] = 0 := by
        rw [changesIn_cons, hunchanged]
        simp [changesIn]
      rw [applyAll_stop hstop hm, hnone]
      exact ⟨hgen, fun _ => hsame rfl⟩

end

namespace Session

variable {s : Session}

/-- A batch counts up the generation by the changes it makes, and the version by one if it makes
any; if it makes none the session stays as it is. -/
theorem editAll_counts (hg : s.graph.WellFormed) (steps : List Step) :
    let n := (editAll steps s).1.kept steps
    (editAll steps s).2.graph.generation = s.graph.generation + n ∧
      (editAll steps s).2.version = (if n = 0 then s.version else (s.version + 1) % countBound) ∧
      (n = 0 → (editAll steps s).2 = s) := by
  intro n
  by_cases hf : (editAll steps s).1.failure = none
  · obtain ⟨hgen, hsame⟩ := Step.applyAll_counts (e := s.openEdit) hg steps
    have htouched := isEmpty_touched_applyAll (e := s.openEdit) hg steps hf
    have hn : n = Step.changesIn steps (Step.applyAll steps s.openEdit).1.results :=
      if_pos (Option.isNone_iff_eq_none.2 hf)
    have hempty : (Step.applyAll steps s.openEdit).2.touched.isEmpty ↔ n = 0 := by
      rw [htouched, hn, Step.changesIn, List.countP_eq_zero]
      change (true && !_) = true ↔ _
      rw [Bool.true_and, Bool.not_eq_true', List.any_eq_false]
    rw [← hn] at hgen hsame
    rw [editAll_snd, hf, Option.isNone_none, if_pos rfl, commit_graph, commit_version]
    refine ⟨hgen, ?_, fun h => ?_⟩
    · simp only [hempty]
    · unfold commit
      rw [hsame h]
      exact if_pos (hempty.2 h)
  · have hn : n = 0 := if_neg (by simpa using hf)
    rw [editAll_failure hg hf, hn]
    exact ⟨rfl, rfl, fun _ => rfl⟩

/-! ## Runs -/

/-- What may become of the graph of a session: a batch of changes, or a snapshot. -/
inductive Act where
  | edit (steps : List Step)
  | load (snapshot : Snapshot)

def Act.apply (s : Session) : Act → Session
  | edit steps => (editAll steps s).2
  | load snapshot => (Session.load snapshot s).2

def run (acts : List Act) (s : Session) : Session := acts.foldl Act.apply s

/-- Whether one of the snapshots is taken over. -/
def takesOver : List Act → Session → Bool
  | [], _ => false
  | .edit steps :: acts, s => takesOver acts (editAll steps s).2
  | .load snapshot :: acts, s =>
    (Session.load snapshot s).1 || takesOver acts (Session.load snapshot s).2

/-- The version has another one after it before each act, so that it does not start again at zero.
-/
def VersionsLeft : List Act → Session → Prop
  | [], _ => True
  | a :: acts, s => s.version + 1 < countBound ∧ VersionsLeft acts (a.apply s)

theorem Reached.act (h : s.Reached) (a : Act) : (a.apply s).Reached := by
  cases a with
  | edit steps => exact h.editAll steps
  | load snapshot => exact h.load snapshot

theorem Reached.run (h : s.Reached) (acts : List Act) : (run acts s).Reached := by
  induction acts generalizing s with
  | nil => exact h
  | cons a acts ih => exact ih (h.act a)

theorem load_counts (snapshot : Snapshot) (s : Session) :
    (Session.load snapshot s).1 = false ∧ (Session.load snapshot s).2 = s ∨
      (Session.load snapshot s).1 = true ∧ s.version < (Session.load snapshot s).2.version ∧
        (Session.load snapshot s).2.graph.generation = 0 := by
  unfold Session.load
  split
  · exact .inl ⟨rfl, rfl⟩
  · exact .inr ⟨rfl, Nat.lt_of_not_le ‹_›, rfl⟩

/-- One moment of a run after another, as the versions and, unless a snapshot was taken over in
between, the generations tell them apart; the versions as long as there are some `left`. -/
structure Follows (taken : Bool) (left : Prop) (s' s : Session) : Prop where
  version_le : left → s.version ≤ s'.version
  of_version : left → s.version = s'.version → s'.graph = s.graph
  generation_le : taken = false → s.graph.generation ≤ s'.graph.generation
  of_generation : taken = false → s.graph.generation = s'.graph.generation → s'.graph = s.graph

namespace Follows

variable {s' s'' : Session} {taken taken' : Bool} {left left' : Prop}

theorem refl (taken : Bool) (left : Prop) (s : Session) : Follows taken left s s :=
  ⟨fun _ => Nat.le_refl _, fun _ _ => rfl, fun _ => Nat.le_refl _, fun _ _ => rfl⟩

theorem trans (h' : Follows taken' left' s'' s') (h : Follows taken left s' s) :
    Follows (taken || taken') (left ∧ left') s'' s := by
  refine ⟨fun hl => (h.version_le hl.1).trans (h'.version_le hl.2), fun hl he => ?_, fun ht => ?_,
    fun ht he => ?_⟩
  · have hle := h.version_le hl.1
    have hle' := h'.version_le hl.2
    exact (h'.of_version hl.2 (by omega)).trans (h.of_version hl.1 (by omega))
  · obtain ⟨ht, ht'⟩ := Bool.or_eq_false_iff.1 ht
    exact (h.generation_le ht).trans (h'.generation_le ht')
  · obtain ⟨ht, ht'⟩ := Bool.or_eq_false_iff.1 ht
    have hle := h.generation_le ht
    have hle' := h'.generation_le ht'
    exact (h'.of_generation ht' (by omega)).trans (h.of_generation ht (by omega))

theorem editAll (hg : s.graph.WellFormed) (steps : List Step) :
    Follows false (s.version + 1 < countBound) (editAll steps s).2 s := by
  obtain ⟨hgen, hver, hsame⟩ := editAll_counts hg steps
  generalize Batch.kept steps (Session.editAll steps s).1 = n at *
  have hver (hl : s.version + 1 < countBound) :
      (Session.editAll steps s).2.version = s.version + min n 1 := by
    rw [hver, Nat.mod_eq_of_lt hl]
    split <;> omega
  exact ⟨fun hl => by have := hver hl; omega,
    fun hl h => congrArg graph (hsame (by have := hver hl; omega)), fun _ => by omega,
    fun _ h => congrArg graph (hsame (by omega))⟩

theorem load (snapshot : Snapshot) (s : Session) (left : Prop) :
    Follows (load snapshot s).1 left (load snapshot s).2 s := by
  rcases load_counts snapshot s with ⟨-, hs⟩ | ⟨ht, hlt, -⟩
  · exact hs.symm ▸ refl _ left s
  · exact ⟨fun _ => hlt.le, fun _ h => absurd h hlt.ne,
      fun h => absurd (ht.symm.trans h) (by decide),
      fun h => absurd (ht.symm.trans h) (by decide)⟩

theorem run (h : s.Reached) (acts : List Act) :
    Follows (takesOver acts s) (VersionsLeft acts s) (run acts s) s := by
  induction acts generalizing s with
  | nil => exact refl _ _ s
  | cons a acts ih =>
    cases a with
    | edit steps => exact (ih (h.editAll steps)).trans (editAll h.wellFormed steps)
    | load snapshot => exact (ih (h.load snapshot)).trans (load snapshot s _)

end Follows

/-- From one moment of a run to a later one the version never goes back, and with the same version
the graph is the same, as long as the version does not come to its last value. So it is with the
generation, unless a snapshot has been taken over in between: that one starts it from zero. By
`Follows.run`, which puts together what a batch and a snapshot do. -/
theorem counters_identify (h : s.Reached) (acts later : List Act) :
    let a := run acts s
    let b := run later a
    (VersionsLeft later a →
        a.version ≤ b.version ∧ (a.version = b.version → b.graph = a.graph)) ∧
      (takesOver later a = false → a.graph.generation ≤ b.graph.generation ∧
        (a.graph.generation = b.graph.generation → b.graph = a.graph)) ∧
      ∀ snapshot, (load snapshot b).1 = true → b.version < (load snapshot b).2.version ∧
        (load snapshot b).2.graph.generation = 0 := by
  intro a b
  have hab : Follows (takesOver later a) (VersionsLeft later a) b a := .run (h.run acts) later
  refine ⟨fun hl => ⟨hab.version_le hl, hab.of_version hl⟩,
    fun ht => ⟨hab.generation_le ht, hab.of_generation ht⟩, fun snapshot ht => ?_⟩
  rcases load_counts snapshot b with ⟨hf, -⟩ | ⟨-, hb⟩
  · exact absurd (ht.symm.trans hf) (by decide)
  · exact hb

/-- A node is added, a batch fails after it has added another one, and a snapshot is too old. -/
theorem counters_identify_start :
    let s := start .default .builtin
    let add : Step := .change (.addNode "Core" "Number" ∅) false
    let a := run [.edit [add]] s
    let b := run [.edit [add, .change (.removeNode ⟨7⟩) false], .load ⟨"old", 1, [], []⟩] a
    a.graph.generation = 1 ∧ b.graph.generation = 1 ∧ a.version ≤ b.version ∧
      b.graph = a.graph := by
  intro s add a b
  have h : s.Reached := .start ..
  obtain ⟨hver, hgen, -⟩ := counters_identify h [.edit [add]]
    [.edit [add, .change (.removeNode ⟨7⟩) false], .load ⟨"old", 1, [], []⟩]
  obtain ⟨hle, -⟩ := hver ⟨by decide +kernel, by decide +kernel, trivial⟩
  obtain ⟨-, hsame⟩ := hgen (by decide +kernel)
  have ha : a.graph.generation = 1 := by decide +kernel
  have hb : b.graph.generation = 1 := by decide +kernel
  exact ⟨ha, hb, hle, hsame (ha.trans hb.symm)⟩

/-- When a snapshot is taken over, the generation goes back, to one that stood for another graph. -/
theorem generation_goes_back :
    let s := start .default .builtin
    let a := run [.edit [.change (.addNode "Core" "Number" ∅) false]] s
    let b := run [.load ⟨"new", 5, [⟨⟨3⟩, "Core", "Number", ∅, []⟩], []⟩] a
    b.graph.generation < a.graph.generation ∧ b.graph.generation = s.graph.generation ∧
      b.graph.nodes ≠ s.graph.nodes := by
  decide +kernel

end Session

end Dataflow
