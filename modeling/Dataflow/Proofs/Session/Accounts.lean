import Dataflow.Proofs.Engine.Once
import Dataflow.Proofs.Session.Proper

/-! What a session works out, and what its statistics say of it.

As long as all is kept that is not dropped for a change, an answer is worked out only where none is
remembered, and each answer that is worked out is remembered until it is dropped (`Balanced`). -/

namespace Dataflow

open Memo (Table Key)

namespace Memo.Table

/-- What was worked out is remembered, or was dropped; and it was looked for in vain once. -/
structure Balanced (t : Table) : Prop where
  misses : t.isCounting → t.statistics.misses = t.statistics.computations
  computations : t.isCounting →
    t.statistics.computations = t.entries.size + t.statistics.invalidations

variable {t t' : Table}

theorem Balanced.empty (isCounting : Bool) : (Table.empty isCounting).Balanced :=
  ⟨fun _ => rfl, fun _ => rfl⟩

theorem Balanced.books (h : t.Balanced) {working : List Key} {log : List Computation}
    (hb : t.Books working log t') : t'.Balanced where
  misses ht := by
    have ht := hb.isCounting.symm.trans ht
    rw [hb.misses ht, hb.computations ht, h.misses ht]
  computations ht := by
    have ht := hb.isCounting.symm.trans ht
    have := h.computations ht
    rw [hb.computations ht, hb.size, hb.invalidations]
    omega

theorem Balanced.invalidate (h : t.Balanced) (nodes : List NodeId) :
    (t.invalidate nodes).2.Balanced := by
  obtain ⟨hc, hs⟩ := statistics_invalidate t nodes
  refine ⟨fun ht => ?_, fun ht => ?_⟩
  · rw [hs (hc.symm.trans ht)]
    exact h.misses (hc.symm.trans ht)
  · have := h.computations (hc.symm.trans ht)
    have := size_invalidate t nodes
    rw [hs (hc.symm.trans ht)]
    dsimp only
    omega

end Memo.Table

namespace Engine

/-- What is remembered of the connections at a node is right wherever they are the same. -/
theorem FilesConnections.sameAt {e e' : Engine} {k : Key} {a : Memo.Answer}
    (h : e.FilesConnections k a) (hs : e'.graph.SameAt e.graph k.node) :
    e'.FilesConnections k a := by
  intro hk cs hcs key
  simp only [Graph.connectionsInto, Graph.connectionsFrom, hs.connections]
  exact h hk cs hcs key

end Engine

namespace Session

/-- Come to from an empty session over the kinds of nodes that there are from the outset, by batches
of changes and by questions alone. -/
inductive Accrued : Session → Prop
  | start (config : Config) : Accrued (.start config .builtin)
  | editAll {s : Session} (steps : List Step) : Accrued s → Accrued (editAll steps s).2
  | perform {s : Session} {α : Type} (p : Plan α) : Accrued s → Accrued (perform p s).2
  | setPending {s : Session} (p : Option PortRef) : Accrued s → Accrued (setPending p s).2

variable {s : Session}

theorem Accrued.edited (h : s.Accrued) : s.Edited (· = .builtin) := by
  induction h with
  | start config => exact .start config rfl
  | editAll steps _ ih => exact .editAll steps ih
  | perform p _ ih => exact .perform p ih
  | setPending p _ ih => exact .setPending p ih

/-- The table of a session is in order: what it tells of the connections is right, every answer fits
its key, and the statistics, if they are kept, come out even. Every session that is `Accrued` has it
so (`Accrued.orderly`). -/
structure Orderly (s : Session) : Prop where
  kept : Engine.Kept s.engine.onward s.table
  balanced : s.table.Balanced
  isCounting : s.table.isCounting = s.config.tracksStatistics

theorem commit_config (e : Edit) : (s.commit e).config = s.config := by
  unfold Session.commit
  split <;> rfl

theorem commit_table (s : Session) (e : Edit) : (s.commit e).table = s.table ∨
    (s.commit e).table = (s.table.invalidate e.touched.toList).2.advance e.graph.generation := by
  unfold Session.commit
  split
  · exact .inl rfl
  · exact .inr rfl

theorem Orderly.commit (h : s.Orderly) (hr : s.table.Rooted) {e : Edit} (he : e.Tracks s.graph) :
    (s.commit e).Orderly := by
  have hkeeps := keeps_commit he
  have hkept : Engine.Kept (s.commit e).engine.onward (s.commit e).table := by
    refine ⟨fun k en hen => ?_, fun k en hen => h.kept.2 k en (hkeeps.entries k en hen).1⟩
    obtain ⟨hen, hs⟩ := hkeeps.entries k en hen
    exact Engine.FilesConnections.sameAt (h.kept.1 k en hen) (hs _ (hr k en hen))
  rcases s.commit_table e with ht | ht
  · exact ⟨hkept, ht ▸ h.balanced, by rw [ht, commit_config]; exact h.isCounting⟩
  · have hb := h.balanced.invalidate e.touched.toList
    refine ⟨hkept, ht ▸ ⟨hb.misses, hb.computations⟩, ?_⟩
    rw [ht, commit_config]
    exact (Table.statistics_invalidate ..).1.trans h.isCounting

theorem Accrued.perform_books (h : s.Accrued) (ho : s.Orderly) {α : Type} (p : Plan α) :
    s.table.Books [] (s.engine.computations p s.table) (s.engine.perform p s.table).2 :=
  have hp := h.edited.proper
  Engine.perform_books hp.wellFormed (hp.all Catalogue.builtin_layered)
    (hp.all Catalogue.builtin_flowing) hp.acyclic p ho.kept

theorem Accrued.orderly (h : s.Accrued) : s.Orderly := by
  induction h with
  | start config => exact ⟨⟨.of_empty rfl, .of_empty rfl⟩, .empty _, rfl⟩
  | @editAll s steps h ih =>
    have hr := h.edited.reached
    have ht := tracks_openEdit hr.wellFormed steps
    rw [editAll_snd]
    split
    · exact ih.commit hr.remembers.rooted ht
    · rw [abandon_eq ht]
      exact ih
  | @perform s α p h ih =>
    have hp := h.edited.proper
    have hb := h.perform_books ih p
    exact ⟨Engine.perform_kept hp.wellFormed (hp.all Catalogue.builtin_layered)
      (hp.all Catalogue.builtin_flowing) p ih.kept, ih.balanced.books hb,
      hb.isCounting.trans ih.isCounting⟩
  | setPending p _ ih => exact ⟨ih.kept, ih.balanced, ih.isCounting⟩

/-- In a session that has only been changed by batches and asked questions, as many look-ups were in
vain as answers were worked out, and of these each is remembered or was dropped for a change. When
questions are asked, however many in a row, no answer is worked out that is remembered when the work
on it begins or when it ends, none is worked out twice, and all of them are remembered.

What is worked out is `Engine.computations`. The first part is that the table is `Balanced`, which
every step of such a session leaves it; the second is `Engine.perform_books`. -/
theorem computes_once (h : s.Accrued) (ht : s.config.tracksStatistics = true) {α : Type}
    (p : Plan α) : ∃ st st',
      s.table.statistics? = some st ∧ (perform p s).2.table.statistics? = some st' ∧
      st.misses = st.computations ∧
      st.computations = s.table.entries.size + st.invalidations ∧
      (∀ c ∈ s.engine.computations p s.table,
        c.key ∉ s.table.entries ∧ c.key ∉ c.before.entries ∧ c.key ∉ c.after.entries) ∧
      ((s.engine.computations p s.table).map Computation.key).Nodup ∧
      st'.computations = st.computations + (s.engine.computations p s.table).length ∧
      ∀ k, k ∈ (perform p s).2.table.entries ↔
        k ∈ s.table.entries ∨ k ∈ (s.engine.computations p s.table).map Computation.key := by
  have ho := h.orderly
  have hb := h.perform_books ho p
  have hc := ho.isCounting.trans ht
  refine ⟨s.table.statistics, (perform p s).2.table.statistics, if_pos hc, if_pos ?_,
    ho.balanced.misses hc, ho.balanced.computations hc,
    fun c hc => ⟨hb.fresh c hc, hb.vacant c hc⟩, hb.nodup, hb.computations hc, fun k => hb.mem⟩
  exact hb.isCounting.trans hc

/-- A number and an array. -/
def shelf : Session :=
  (editAll [.change (.addNode "Core" "Number" ∅) false, .change (.addNode "Core" "Array" ∅) false]
    (start .default .builtin)).2

/-- The values of both. -/
def shelfValues : Plan Value := do
  let _ ← Plan.value ⟨0⟩ (.root .root) "output"
  Plan.value ⟨1⟩ (.root .root) "output"

/-- Where the number was asked for its value before, only the array is left to be worked out, with
the connections into it. -/
theorem shelf_computes_once :
    let s := (perform (Plan.value ⟨0⟩ (.root .root) "output") shelf).2
    ∃ st st', s.table.statistics? = some st ∧
      (perform shelfValues s).2.table.statistics? = some st' ∧
      st.misses = st.computations ∧ st.computations = s.table.entries.size + st.invalidations ∧
      st'.computations = st.computations + 2 := by
  intro s
  have h : s.Accrued := .perform _ (.editAll _ (.start _))
  obtain ⟨st, st', hst, hst', hm, hc, -, -, hlog, -⟩ := computes_once h rfl shelfValues
  refine ⟨st, st', hst, hst', hm, hc, hlog.trans (congrArg (st.computations + ·) ?_)⟩
  exact Engine.map_perform_eq (e := shelf.engine) (t := shelf.table) (d := 8)
    (p := Plan.value ⟨0⟩ (.root .root) "output")
    (fun r => (shelf.engine.computations shelfValues r.2).length) (by decide +kernel)

end Session

end Dataflow
