import Dataflow.Proofs.Memo.Entries

/-! What a table has gone through, and what is dropped from it.

A change of a node drops the answers that have read it, and besides these the answers that have
taken the place of one that had (`former`). In a history where no answer takes the place of another,
which is one that is `Orderly`, there are none of the latter. -/

namespace Dataflow.Memo

namespace Table

variable {t : Table} {d : Nat × Table} {k : Key} {en : Entry} {id n : NodeId}

/-! ## What is dropped -/

/-- The nodes that were read for the answers which the one under a key has replaced. -/
def former (t : Table) (k : Key) : NodeSet := t.superseded[k]?.getD ∅

theorem isReader_iff : t.isReader n k en ↔ n ∈ en.reads ∨ n ∈ t.former k := by
  simp only [isReader, former, Bool.or_eq_true, Std.ExtTreeSet.contains_iff_mem]

theorem getElem?_dropReaders (d : Nat × Table) (id : NodeId) (k : Key) :
    (dropReaders d id).2.entries[k]? = d.2.entries[k]?.filter fun en => !d.2.isReader id k en :=
  Std.ExtTreeMap.getElem?_filter'

theorem mem_former_dropReaders : n ∈ (dropReaders d id).2.former k ↔
    n ∈ d.2.former k ∧ n ≠ id ∧
      ∀ en, d.2.entries[k]? = some en → d.2.isReader id k en → n ∉ en.reads := by
  have hforgets : (d.2.entries.filter (d.2.isReader id))[k]?.any (·.reads.contains n) = false ↔
      ∀ en, d.2.entries[k]? = some en → d.2.isReader id k en → n ∉ en.reads := by
    rw [Std.ExtTreeMap.getElem?_filter', Bool.eq_false_iff, ne_eq, Option.any_eq_true]
    simp only [Option.filter_eq_some_iff, Std.ExtTreeSet.contains_iff_mem]
    grind
  unfold former
  simp only [dropReaders, Std.ExtTreeMap.getElem?_map]
  cases d.2.superseded[k]? with
  | none => simp
  | some nodes =>
    simp only [Option.map_some, Option.getD_some, Std.ExtTreeSet.mem_filter,
      Std.ExtTreeSet.get_eq, exists_prop, Bool.not_eq_true', Bool.or_eq_false_iff,
      decide_eq_false_iff_not, hforgets]

/-- What drops an answer that stays has dropped it before. -/
theorem isReader_dropReaders (h : (dropReaders d id).2.entries[k]? = some en) (n : NodeId) :
    (dropReaders d id).2.isReader n k en = d.2.isReader n k en := by
  rw [getElem?_dropReaders, Option.filter_eq_some_iff, Bool.not_eq_true'] at h
  obtain ⟨hen, hid⟩ := h
  rw [Bool.eq_iff_iff, isReader_iff, isReader_iff, mem_former_dropReaders]
  rw [Bool.eq_false_iff, ne_eq, isReader_iff] at hid
  grind [isReader_iff]

/-- An answer is dropped when one of the nodes was read for it, or for an answer whose place it has
taken. The nodes come one after the other, and what drops an answer is not changed by those before
(`isReader_dropReaders`). -/
theorem getElem?_invalidate (t : Table) (nodes : List NodeId) (k : Key) :
    (t.invalidate nodes).2.entries[k]? =
      t.entries[k]?.filter fun en => nodes.all fun id => !t.isReader id k en := by
  have hfold (d : Nat × Table) : (nodes.foldl dropReaders d).2.entries[k]? =
      d.2.entries[k]?.filter fun en => nodes.all fun id => !d.2.isReader id k en := by
    induction nodes generalizing d with
    | nil =>
      cases h : d.2.entries[k]? with
      | none => exact h
      | some en => rw [Option.filter_some_pos rfl, ← h]; rfl
    | cons id ids ih =>
      rw [List.foldl_cons, ih]
      refine Option.ext fun en => ?_
      simp only [Option.filter_eq_some_iff, List.all_cons, Bool.and_eq_true]
      have hstays (hen : (dropReaders d id).2.entries[k]? = some en) :
          (ids.all fun n => !(dropReaders d id).2.isReader n k en) =
            ids.all fun n => !d.2.isReader n k en := by
        simp only [isReader_dropReaders hen]
      have hdropped := getElem?_dropReaders d id k
      grind [Option.filter_eq_some_iff]
  simp only [invalidate, (count_frames _ _).2]
  exact hfold (0, t)

/-- Where nothing is superseded, an answer is dropped exactly when it has read one of the nodes. -/
theorem getElem?_invalidate_of_superseded (h : t.superseded = ∅) (nodes : List NodeId)
    (hen : t.entries[k]? = some en) : (t.invalidate nodes).2.entries[k]? =
      if ∃ id ∈ nodes, id ∈ en.reads then none else some en := by
  have hformer (n : NodeId) : n ∉ t.former k := by simp [former, h]
  have hstays : (nodes.all fun id => !t.isReader id k en) ↔ ¬∃ id ∈ nodes, id ∈ en.reads := by
    simp only [List.all_eq_true, Bool.not_eq_true', Bool.eq_false_iff, ne_eq, isReader_iff,
      hformer, or_false]
    grind
  rw [getElem?_invalidate, hen, Option.filter_some]
  simp only [hstays, ite_not]

/-- As many answers are counted as are there before and not afterwards. -/
theorem size_removed_invalidate (t : Table) (nodes : List NodeId) :
    (t.entries.filter fun k _ => !(t.invalidate nodes).2.contains k).size =
      (t.invalidate nodes).1 := by
  have hkept : (t.entries.filter fun k _ => (t.invalidate nodes).2.contains k) =
      (t.invalidate nodes).2.entries := by
    refine Std.ExtTreeMap.ext_getElem? fun {k} => Option.ext fun en => ?_
    simp only [Std.ExtTreeMap.getElem?_filter', Option.filter_eq_some_iff, contains,
      Std.ExtTreeMap.contains_eq_isSome_getElem?, getElem?_invalidate]
    grind
  have hsplit := Tables.size_filter_add_size_filter t.entries
    fun k _ => (t.invalidate nodes).2.contains k
  have hcounted := size_invalidate t nodes
  rw [hkept] at hsplit
  omega

end Table

/-! ## Histories -/

/-- One thing that is done to a table. -/
inductive Act where
  | enter
  | read (node : NodeId)
  | readAll (nodes : NodeSet)
  | lookup (k : Key)
  | markCyclic
  | leave
  | finish (k : Key) (a : Answer)
  | invalidate (nodes : List NodeId)
  | clear
  | advance (generation : Nat)

namespace Table

variable {t : Table} {acts : List Act}

def act (t : Table) : Act → Table
  | .enter => t.enter
  | .read node => t.read node
  | .readAll nodes => t.readAll nodes
  | .lookup k => (t.lookup k).2
  | .markCyclic => t.markCyclic
  | .leave => t.leave.2
  | .finish k a => t.finish k a
  | .invalidate nodes => (t.invalidate nodes).2
  | .clear => t.clear
  | .advance generation => t.advance generation

/-- The table after a history that begins with nothing remembered. -/
def after (counting : Bool) (acts : List Act) : Table := acts.foldl act (.empty counting)

/-- No answer takes the place of another one. -/
def Admits (t : Table) : Act → Prop
  | .finish k _ => t.contains k = false
  | _ => True

/-- Throughout the history no answer takes the place of another one. -/
def Orderly (t : Table) : List Act → Prop
  | [] => True
  | a :: acts => t.Admits a ∧ (t.act a).Orderly acts

instance (t : Table) : (a : Act) → Decidable (t.Admits a)
  | .finish k _ => inferInstanceAs (Decidable (t.contains k = false))
  | .enter | .read _ | .readAll _ | .lookup _ | .markCyclic | .leave | .invalidate _ | .clear
  | .advance _ => inferInstanceAs (Decidable True)

instance instDecidableOrderly : (acts : List Act) → (t : Table) → Decidable (t.Orderly acts)
  | [], _ => inferInstanceAs (Decidable True)
  | a :: acts, t =>
    have := instDecidableOrderly acts (t.act a)
    inferInstanceAs (Decidable (_ ∧ _))

theorem superseded_invalidate (h : t.superseded = ∅) (nodes : List NodeId) :
    (t.invalidate nodes).2.superseded = ∅ := by
  have hfold (d : Nat × Table) (hd : d.2.superseded = ∅) :
      (nodes.foldl dropReaders d).2.superseded = ∅ := by
    induction nodes generalizing d with
    | nil => exact hd
    | cons id ids ih =>
      refine ih _ ?_
      simp only [dropReaders, hd]
      exact Std.ExtTreeMap.ext_getElem? fun {k} => by simp
  simp only [invalidate, superseded_count]
  exact hfold (0, t) h

/-- Nothing is superseded by an act that puts no answer in the place of another. -/
theorem superseded_act {a : Act} (ha : t.Admits a) (h : t.superseded = ∅) :
    (t.act a).superseded = ∅ := by
  cases a with
  | enter => exact h
  | read id => exact (Passes.read t id).superseded.trans h
  | readAll nodes => exact (Passes.readAll t nodes).superseded.trans h
  | lookup k =>
    obtain ⟨_, hk⟩ := Passes.lookup t k
    exact hk.superseded.trans h
  | markCyclic => exact (Passes.markCyclic t).superseded.trans h
  | leave => exact (superseded_leave t).trans h
  | finish k a =>
    exact (superseded_finish (Std.ExtTreeMap.getElem?_eq_none_of_contains_eq_false ha) a).trans h
  | invalidate nodes => exact superseded_invalidate h nodes
  | clear => rfl
  | advance => exact h

theorem superseded_of_orderly (ho : t.Orderly acts) (h : t.superseded = ∅) :
    (acts.foldl act t).superseded = ∅ := by
  induction acts generalizing t with
  | nil => exact h
  | cons a acts ih => exact ih ho.2 (superseded_act ho.1 h)

/-- Whatever a table has gone through: of what is left none has read one of the nodes, and the count
is of what is gone. If no answer has taken the place of another, then nothing is gone but what has
read one of the nodes.

The first part is `entries_invalidate`, for any table. For the last, nothing is superseded in a
history that is `Orderly` (`superseded_of_orderly`), and then `getElem?_invalidate_of_superseded`
tells what is gone. That the readers of each node lead to the same answers is
`Readers.sweep_eq_invalidate`. -/
theorem invalidate_exact (counting : Bool) (acts : List Act) (nodes : List NodeId) :
    let t := after counting acts
    let dropped := t.invalidate nodes
    (∀ (k : Key) (en : Entry), dropped.2.entries[k]? = some en →
      t.entries[k]? = some en ∧ ∀ id ∈ nodes, id ∉ en.reads) ∧
    dropped.1 = (t.entries.filter fun k _ => !dropped.2.contains k).size ∧
    ((empty counting).Orderly acts → ∀ (k : Key) (en : Entry), t.entries[k]? = some en →
      dropped.2.entries[k]? = if ∃ id ∈ nodes, id ∈ en.reads then none else some en) := by
  intro t dropped
  refine ⟨fun k en => entries_invalidate, (size_removed_invalidate t nodes).symm,
    fun ho k en hen => ?_⟩
  exact getElem?_invalidate_of_superseded (superseded_of_orderly ho rfl) nodes hen

/-- The answer at the node 0 has used the one at the node 1. The one at the node 2 has used neither.
-/
def sharing : List Act :=
  let key (node : NodeId) : Key := .inScope .value node [] "output"
  [.enter, .read ⟨1⟩, .finish (key ⟨1⟩) (.value .nothing), .enter, .read ⟨0⟩, .lookup (key ⟨1⟩),
    .finish (key ⟨0⟩) (.value .nothing), .enter, .read ⟨2⟩, .finish (key ⟨2⟩) (.value .nothing)]

/-- One node, touched twice. -/
def touched : List NodeId := [⟨1⟩, ⟨1⟩]

theorem invalidate_exact_sharing : (empty true).Orderly sharing ∧
    ((after true sharing).invalidate touched).2.contains (.inScope .value ⟨0⟩ [] "output") = false ∧
    ((after true sharing).invalidate touched).2.contains (.inScope .value ⟨2⟩ [] "output") := by
  have ho : (empty true).Orderly sharing := by decide +kernel
  have exact := (invalidate_exact true sharing touched).2.2 ho
  have reader : ∃ en, (after true sharing).entries[Key.inScope .value ⟨0⟩ [] "output"]? = some en ∧
      decide (∃ id ∈ touched, id ∈ en.reads) :=
    (Option.any_eq_true ..).1 (by decide +kernel)
  have other : ∃ en, (after true sharing).entries[Key.inScope .value ⟨2⟩ [] "output"]? = some en ∧
      decide (¬∃ id ∈ touched, id ∈ en.reads) :=
    (Option.any_eq_true ..).1 (by decide +kernel)
  obtain ⟨en, hen, hreads⟩ := reader
  obtain ⟨en', hen', hreads'⟩ := other
  have hgone := exact _ en hen
  have hstays := exact _ en' hen'
  rw [if_pos (of_decide_eq_true hreads)] at hgone
  rw [if_neg (of_decide_eq_true hreads')] at hstays
  simp only [contains, Std.ExtTreeMap.contains_eq_isSome_getElem?, hgone, hstays]
  exact ⟨ho, rfl, rfl⟩

end Table

end Dataflow.Memo
