import Dataflow.Memo.Table
import Dataflow.Proofs.Tables

/-! Frames: what a piece of work leaves in the innermost frame is what it read and whether it was
cut short, whatever the frame held before (`Passes`). -/

namespace Dataflow.Memo

namespace Frame

@[simp] theorem absorb_empty (f : Frame) : f.absorb .empty = f := by
  simp only [absorb, empty, Tables.union_empty, Bool.or_false]

@[simp] theorem empty_absorb (f : Frame) : Frame.empty.absorb f = f := by
  simp only [absorb, empty, Tables.empty_union, Bool.false_or]

theorem absorb_assoc (f g h : Frame) : (f.absorb g).absorb h = f.absorb (g.absorb h) := by
  simp only [absorb, Bool.or_assoc, Tables.union_assoc]

@[simp] theorem absorb_cyclic (f g : Frame) : (f.absorb g).cyclic = (f.cyclic || g.cyclic) := rfl

@[simp] theorem absorb_reads (f g : Frame) : (f.absorb g).reads = f.reads ∪ g.reads := rfl

/-- Some nodes were read. -/
def reading (nodes : NodeSet) : Frame := ⟨nodes, false⟩

/-- The work was cut short. -/
def cut : Frame := ⟨∅, true⟩

end Frame

namespace Table

variable {t t' t'' : Table} {f g : Frame} {k : Key}

/-- The work left this behind in the innermost frame, if there is one, and remembered nothing. -/
structure Passes (t : Table) (f : Frame) (t' : Table) : Prop where
  frames : t'.frames = t.frames.modifyHead (·.absorb f)
  entries : t'.entries = t.entries
  superseded : t'.superseded = t.superseded

theorem modifyHead_absorb (fs : List Frame) (f g : Frame) :
    (fs.modifyHead (·.absorb f)).modifyHead (·.absorb g) =
      fs.modifyHead (·.absorb (f.absorb g)) := by
  cases fs with
  | nil => rfl
  | cons h fs => simp only [List.modifyHead_cons, Frame.absorb_assoc]

theorem modifyHead_empty (fs : List Frame) : fs.modifyHead (·.absorb .empty) = fs := by
  cases fs with
  | nil => rfl
  | cons h fs => simp only [List.modifyHead_cons, Frame.absorb_empty]

namespace Passes

theorem refl (t : Table) : Passes t .empty t := ⟨(modifyHead_empty _).symm, rfl, rfl⟩

theorem trans (h : Passes t f t') (h' : Passes t' g t'') : Passes t (f.absorb g) t'' :=
  ⟨by rw [h'.frames, h.frames, modifyHead_absorb], h'.entries.trans h.entries,
    h'.superseded.trans h.superseded⟩

theorem count (h : Passes t f t') (c : Statistics → Statistics) : Passes t f (t'.count c) := by
  unfold Table.count
  split
  · exact ⟨h.frames, h.entries, h.superseded⟩
  · exact h

theorem onFrame {c : Frame → Frame} (hc : ∀ g, c g = g.absorb f) (t : Table) :
    Passes t f (t.onFrame c) := by
  unfold Table.onFrame
  cases h : t.frames with
  | nil => exact ⟨by simp [h], rfl, rfl⟩
  | cons g gs => exact ⟨by simp [h, hc], rfl, rfl⟩

theorem readAll (t : Table) (nodes : NodeSet) : Passes t (.reading nodes) (t.readAll nodes) :=
  onFrame (fun g => by simp [Frame.absorb, Frame.reading]) t

theorem markCyclic (t : Table) : Passes t .cut t.markCyclic :=
  onFrame (fun g => by simp [Frame.absorb, Frame.cut, Tables.union_empty]) t

theorem lookup_miss (h : t.entries[k]? = none) :
    (t.lookup k).1 = none ∧ Passes t .empty (t.lookup k).2 := by
  simp only [Table.lookup, h]
  exact ⟨trivial, (refl t).count _⟩

theorem lookup_hit {e : Entry} (h : t.entries[k]? = some e) :
    (t.lookup k).1 = some e.answer ∧ Passes t (.reading e.reads) (t.lookup k).2 := by
  simp only [Table.lookup, h]
  exact ⟨trivial, (readAll t e.reads).count _⟩

end Passes

/-- Reading one node is reading the set of it. -/
theorem read_eq_readAll (t : Table) (id : NodeId) : t.read id = t.readAll {id} := by
  simp only [read, readAll, Tables.insert_eq_union]

theorem Passes.read (t : Table) (id : NodeId) : Passes t (.reading {id}) (t.read id) := by
  rw [read_eq_readAll]
  exact .readAll t {id}

theorem readAll_empty (t : Table) : t.readAll ∅ = t := by
  obtain ⟨entries, superseded, frames, statistics, isCounting, generation⟩ := t
  cases frames with
  | nil => rfl
  | cons f fs => simp only [readAll, onFrame, Tables.union_empty]

/-- A frame that is opened for a key has read its node. -/
theorem enter_read_frames (t : Table) (id : NodeId) :
    (t.enter.read id).frames = .reading {id} :: t.frames := by
  simp only [read_eq_readAll, readAll, onFrame, enter, Frame.empty, Frame.reading,
    Tables.empty_union]

theorem enter_read_entries (t : Table) (id : NodeId) : (t.enter.read id).entries = t.entries := rfl

variable {fs : List Frame} {a : Answer}

/-- The frame that is closed goes into the one around it. -/
theorem leave_frames (h : t.frames = f :: fs) :
    t.leave.1 = f ∧ t.leave.2.frames = fs.modifyHead (·.absorb f) ∧
      t.leave.2.entries = t.entries := by
  simp only [leave, h]
  cases fs with
  | nil => exact ⟨trivial, rfl, rfl⟩
  | cons g gs => exact ⟨trivial, rfl, rfl⟩

theorem count_frames (t : Table) (c : Statistics → Statistics) :
    (t.count c).frames = t.frames ∧ (t.count c).entries = t.entries := by
  unfold count
  split <;> exact ⟨rfl, rfl⟩

theorem finish_frames (h : t.frames = f :: fs) :
    (t.finish k a).frames = fs.modifyHead (·.absorb f) := by
  obtain ⟨hf, hfs, -⟩ := leave_frames h
  simp only [finish]
  split <;> exact (count_frames _ _).1.trans hfs

/-- An answer is filed unless the frame has noted a cycle. -/
theorem finish_entries (h : t.frames = f :: fs) :
    (t.finish k a).entries =
      if f.cyclic then t.entries else t.entries.insert k ⟨a, f.reads⟩ := by
  obtain ⟨rfl, -, he⟩ := leave_frames h
  simp only [finish]
  split
  · exact (count_frames _ _).2.trans he
  · simp only [file, (count_frames _ _).2, he]

end Table

end Dataflow.Memo
