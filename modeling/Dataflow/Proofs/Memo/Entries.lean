import Dataflow.Proofs.Memo.Frames

/-! The answers in a table: each has read the node that it is about (`Rooted`), nothing is
superseded by an answer that is filed where there was none, and when answers are dropped those stay
that have read none of the nodes in question (`entries_invalidate`). -/

namespace Dataflow.Memo.Table

variable {t t' t'' : Table} {k : Key} {en : Entry}

/-- Every answer has read the node that it is about. -/
def Rooted (t : Table) : Prop :=
  ∀ (k : Key) (en : Entry), t.entries[k]? = some en → k.node ∈ en.reads

theorem Rooted.of_entries {t t' : Table} (h : t.Rooted) (he : t'.entries = t.entries) :
    t'.Rooted := by
  unfold Rooted
  rw [he]
  exact h

/-- The work left the table rooted if it was, and something behind in the innermost frame. -/
structure Grows (t t' : Table) : Prop where
  rooted : t.Rooted → t'.Rooted
  frames : ∃ f : Frame, t'.frames = t.frames.modifyHead (·.absorb f)

theorem Passes.grows {f : Frame} (h : t.Passes f t') : t.Grows t' :=
  ⟨fun ht => ht.of_entries h.entries, f, h.frames⟩

theorem Grows.refl (t : Table) : t.Grows t := (Passes.refl t).grows

theorem Grows.trans (h : t.Grows t') (h' : t'.Grows t'') : t.Grows t'' := by
  obtain ⟨f, hf⟩ := h.frames
  obtain ⟨g, hg⟩ := h'.frames
  exact ⟨fun ht => h'.rooted (h.rooted ht), f.absorb g, by rw [hg, hf, modifyHead_absorb]⟩

/-- An answer that is worked out in a frame of its own. -/
theorem Grows.finish {k : Key} {a : Answer} (h : (t.enter.read k.node).Grows t') :
    t.Grows (t'.finish k a) := by
  obtain ⟨f, hf⟩ := h.frames
  rw [enter_read_frames, List.modifyHead_cons] at hf
  refine ⟨fun ht => ?_, _, finish_frames hf⟩
  have ht' := h.rooted (ht.of_entries (enter_read_entries t k.node))
  intro k' en hen
  rw [finish_entries hf] at hen
  split at hen
  · exact ht' k' en hen
  · rw [Tables.getElem?_insert] at hen
    split at hen
    · cases hen
      subst k'
      exact Std.ExtTreeSet.mem_union_iff.2 (.inl (Tables.mem_singleton.2 rfl))
    · exact ht' k' en hen

theorem Grows.leave (h : t.enter.Grows t') : t.Grows t'.leave.2 := by
  obtain ⟨f, hf⟩ := h.frames
  rw [show t.enter.frames = .empty :: t.frames from rfl, List.modifyHead_cons,
    Frame.empty_absorb] at hf
  obtain ⟨-, hfs, he⟩ := leave_frames hf
  exact ⟨fun ht => (h.rooted ht).of_entries he, f, hfs⟩

theorem Passes.lookup (t : Table) (k : Key) : ∃ f, t.Passes f (t.lookup k).2 := by
  cases h : t.entries[k]? with
  | none => exact ⟨_, (lookup_miss h).2⟩
  | some en => exact ⟨_, (lookup_hit h).2⟩

/-! ## What is filed under a key -/

theorem leave_entries (t : Table) : t.leave.2.entries = t.entries := by
  cases h : t.frames with
  | nil => simp only [leave, h]
  | cons f fs => exact (leave_frames h).2.2

/-- At the end of some work an answer is filed or not; nothing else is. -/
theorem entries_finish (t : Table) (k : Key) (a : Answer) :
    (t.finish k a).entries = t.entries ∨
      ∃ reads, (t.finish k a).entries = t.entries.insert k ⟨a, reads⟩ := by
  have hc (c : Statistics → Statistics) : (t.leave.2.count c).entries = t.entries :=
    (count_frames _ c).2.trans (leave_entries t)
  simp only [finish]
  split
  · exact .inl (hc _)
  · exact .inr ⟨_, by rw [file, hc]⟩

/-! ## What is superseded -/

theorem superseded_count (t : Table) (c : Statistics → Statistics) :
    (t.count c).superseded = t.superseded :=
  ((Passes.refl t).count c).superseded

theorem superseded_leave (t : Table) : t.leave.2.superseded = t.superseded := by
  unfold leave
  split
  · rfl
  next top rest _ =>
    exact (Passes.onFrame (f := top) (fun _ => rfl) { t with frames := rest }).superseded

theorem superseded_file (h : t.entries[k]? = none) (en : Entry) :
    (t.file k en).superseded = t.superseded := by
  rw [file, h]

theorem superseded_finish (h : t.entries[k]? = none) (a : Answer) :
    (t.finish k a).superseded = t.superseded := by
  unfold finish
  dsimp only
  split
  · rw [superseded_count, superseded_leave]
  · rw [superseded_file, superseded_count, superseded_leave]
    rw [(count_frames _ _).2, leave_entries, h]

/-! ## Kinds of answers -/

/-- All answers in the table are of a kind that may be filed under their keys. -/
def Holds (R : Key → Answer → Prop) (t : Table) : Prop :=
  ∀ k en, t.entries[k]? = some en → R k en.answer

namespace Holds

variable {R : Key → Answer → Prop}

theorem of_entries (h : t.Holds R) (he : t'.entries = t.entries) : t'.Holds R := by
  unfold Holds
  rw [he]
  exact h

theorem of_empty (h : t.entries = ∅) : t.Holds R := by
  intro k en hen
  simp [h] at hen

theorem enter (h : t.Holds R) : t.enter.Holds R := h.of_entries rfl

theorem leave (h : t.Holds R) : t.leave.2.Holds R := h.of_entries (leave_entries t)

theorem readAll (h : t.Holds R) (nodes : NodeSet) : (t.readAll nodes).Holds R :=
  h.of_entries (Passes.readAll t nodes).entries

theorem lookup (h : t.Holds R) {a : Answer} (ha : (t.lookup k).1 = some a) : R k a := by
  cases hk : t.entries[k]? with
  | none => simp [(Passes.lookup_miss hk).1] at ha
  | some en =>
    rw [(Passes.lookup_hit hk).1] at ha
    cases ha
    exact h k en hk

theorem finish (h : t.Holds R) {a : Answer} (ha : R k a) : (t.finish k a).Holds R := by
  have hc (c : Statistics → Statistics) : (t.leave.2.count c).Holds R :=
    h.leave.of_entries (count_frames _ c).2
  simp only [Table.finish]
  split
  · exact hc _
  · intro k' en hen
    rw [file, Tables.getElem?_insert] at hen
    split at hen
    · cases hen
      subst k'
      exact ha
    · exact hc _ k' en hen

end Holds

/-! ## Dropping answers -/

theorem entries_dropReaders {d : Nat × Table} {id : NodeId}
    (h : (dropReaders d id).2.entries[k]? = some en) :
    d.2.entries[k]? = some en ∧ id ∉ en.reads := by
  simp only [dropReaders, Std.ExtTreeMap.getElem?_filter', Option.filter_eq_some_iff, isReader] at h
  obtain ⟨h, hr⟩ := h
  refine ⟨h, fun hid => ?_⟩
  simp [Std.ExtTreeSet.contains_iff_mem.2 hid] at hr

/-- What is left when some nodes are invalidated was there before and has read none of them. -/
theorem entries_invalidate {nodes : List NodeId}
    (h : (t.invalidate nodes).2.entries[k]? = some en) :
    t.entries[k]? = some en ∧ ∀ id ∈ nodes, id ∉ en.reads := by
  have hfold (d : Nat × Table) :
      (nodes.foldl dropReaders d).2.entries[k]? = some en →
        d.2.entries[k]? = some en ∧ ∀ id ∈ nodes, id ∉ en.reads := by
    clear h
    intro h
    induction nodes generalizing d with
    | nil => exact ⟨h, fun _ hid => by cases hid⟩
    | cons id ids ih =>
      obtain ⟨h, hids⟩ := ih _ h
      obtain ⟨h, hid⟩ := entries_dropReaders h
      exact ⟨h, List.forall_mem_cons.2 ⟨hid, hids⟩⟩
  refine hfold (0, t) ?_
  rw [invalidate, (count_frames _ _).2] at h
  exact h

/-- Each answer that is dropped is counted, and counted once. -/
theorem size_dropReaders (d : Nat × Table) (id : NodeId) :
    (dropReaders d id).1 + (dropReaders d id).2.entries.size = d.1 + d.2.entries.size := by
  have := Tables.size_filter_add_size_filter d.2.entries (d.2.isReader id)
  simp only [dropReaders]
  omega

theorem size_invalidate (t : Table) (nodes : List NodeId) :
    (t.invalidate nodes).1 + (t.invalidate nodes).2.entries.size = t.entries.size := by
  have hfold (d : Nat × Table) : (nodes.foldl dropReaders d).1 +
      (nodes.foldl dropReaders d).2.entries.size = d.1 + d.2.entries.size := by
    induction nodes generalizing d with
    | nil => rfl
    | cons id ids ih => exact (ih _).trans (size_dropReaders d id)
  simp only [invalidate, (count_frames _ _).2]
  exact (hfold (0, t)).trans (Nat.zero_add _)

/-- Only the answers that are dropped are counted. -/
theorem statistics_invalidate (t : Table) (nodes : List NodeId) :
    (t.invalidate nodes).2.isCounting = t.isCounting ∧
      (t.isCounting → (t.invalidate nodes).2.statistics =
        { t.statistics with
          invalidations := t.statistics.invalidations + (t.invalidate nodes).1 }) := by
  have hfold (d : Nat × Table) :
      (nodes.foldl dropReaders d).2.isCounting = d.2.isCounting ∧
        (nodes.foldl dropReaders d).2.statistics = d.2.statistics := by
    induction nodes generalizing d with
    | nil => exact ⟨rfl, rfl⟩
    | cons id ids ih => exact ih _
  obtain ⟨hc, hs⟩ := hfold (0, t)
  simp only [invalidate, count]
  split
  · exact ⟨hc, fun _ => by rw [hs]⟩
  next h => exact ⟨hc, fun ht => absurd (hc.trans ht) h⟩

end Dataflow.Memo.Table
