import Dataflow.Proofs.Memo.History

/-! The readers of each node, kept up to date while answers are filed and dropped.

A node that has changed need not be looked for in all answers. It is enough to know under which keys
an answer that read it was filed, and to take from these what is still there. A key stays with a
node when another answer takes the place of the one that read it, and it stays with all other nodes
when there is no answer under it any more; so more may be dropped than has read the node, but never
less, and what is dropped is the same as what `Table.invalidate` drops. -/

namespace Dataflow.Memo

abbrev Keys := Std.ExtTreeSet Key compare

abbrev Readers := Std.ExtTreeMap NodeId Keys compare

namespace Readers

variable {r : Readers} {t : Table} {k m : Key} {n node : NodeId}

/-- The keys that a node has. -/
def keysOf (r : Readers) (n : NodeId) : Keys := r[n]?.getD ∅

/-- An answer is filed under the key, and some nodes were read for it. -/
def add (r : Readers) (k : Key) (nodes : List NodeId) : Readers :=
  nodes.foldl (fun r n => r.insert n ((r.keysOf n).insert k)) r

/-- No answer is under the key any more that had read the nodes. -/
def remove (r : Readers) (k : Key) (nodes : List NodeId) : Readers :=
  nodes.foldl
    (fun r n =>
      match r[n]? with
      | some keys => r.insert n (keys.erase k)
      | none => r) r

end Readers

/-- The answers and the readers of each node, while answers are dropped and counted. -/
structure Sweep where
  count : Nat
  entries : Std.ExtTreeMap Key Entry compare
  readers : Readers

namespace Sweep

/-- Drops what is still there under a key of the node. -/
def dropKey (node : NodeId) (s : Sweep) (k : Key) : Sweep :=
  match s.entries[k]? with
  | none => s
  | some en =>
    ⟨s.count + 1, s.entries.erase k, s.readers.remove k (en.reads.toList.filter (· ≠ node))⟩

def dropNode (s : Sweep) (node : NodeId) : Sweep :=
  match s.readers[node]? with
  | none => s
  | some keys => keys.toList.foldl (dropKey node) { s with readers := s.readers.erase node }

end Sweep

namespace Readers

variable {r : Readers} {t : Table} {k m : Key} {n node : NodeId}

/-- What becomes of the readers by an act on a table. -/
def act (r : Readers) (t : Table) : Act → Readers
  | .finish k _ => if t.leave.1.cyclic then r else r.add k t.leave.1.reads.toList
  | .invalidate nodes => (nodes.foldl Sweep.dropNode ⟨0, t.entries, r⟩).readers
  | .clear => ∅
  | _ => r

/-- The readers after a history of the table. -/
def after (r : Readers) (t : Table) : List Act → Readers
  | [] => r
  | a :: acts => (r.act t a).after (t.act a) acts

/-! ## Keys of a node -/

theorem mem_keysOf_insert {keys : Keys} :
    k ∈ keysOf (r.insert n keys) node ↔ if node = n then k ∈ keys else k ∈ r.keysOf node := by
  unfold keysOf
  rw [Tables.getElem?_insert]
  split <;> simp

theorem mem_keysOf_add {nodes : List NodeId} :
    m ∈ (r.add k nodes).keysOf node ↔ m ∈ r.keysOf node ∨ m = k ∧ node ∈ nodes := by
  induction nodes generalizing r with
  | nil => simp [add]
  | cons n nodes ih =>
    rw [add, List.foldl_cons, ← add, ih, mem_keysOf_insert, Tables.mem_insert]
    grind

theorem mem_keysOf_remove {nodes : List NodeId} :
    m ∈ (r.remove k nodes).keysOf node ↔ m ∈ r.keysOf node ∧ ¬(m = k ∧ node ∈ nodes) := by
  induction nodes generalizing r with
  | nil => simp [remove]
  | cons n nodes ih =>
    rw [remove, List.foldl_cons, ← remove, ih]
    cases hn : r[n]? with
    | none =>
      have : ∀ k, k ∉ r.keysOf n := by simp [keysOf, hn]
      grind
    | some keys =>
      have : r.keysOf n = keys := by simp [keysOf, hn]
      rw [mem_keysOf_insert, Std.ExtTreeSet.mem_erase, ne_eq, Std.LawfulEqCmp.compare_eq_iff_eq]
      grind

theorem mem_keysOf_erase : k ∈ keysOf (r.erase n) node ↔ node ≠ n ∧ k ∈ r.keysOf node := by
  unfold keysOf
  rw [Tables.getElem?_erase]
  split <;> simp [*]

end Readers

/-! ## Dropping the answers of a node -/

namespace Sweep

variable {s : Sweep} {k m : Key} {n node : NodeId} {en : Entry}

theorem entries_dropKey : (s.dropKey node k).entries[m]? =
    if m = k then none else s.entries[m]? := by
  unfold dropKey
  split
  next h => split <;> simp_all
  next h => rw [Tables.getElem?_erase]

theorem readers_dropKey : m ∈ (s.dropKey node k).readers.keysOf n ↔
    m ∈ s.readers.keysOf n ∧
      ¬(m = k ∧ n ≠ node ∧ ∃ en, s.entries[m]? = some en ∧ n ∈ en.reads) := by
  unfold dropKey
  split
  next h => grind
  next en h =>
    rw [Readers.mem_keysOf_remove, List.mem_filter, Std.ExtTreeSet.mem_toList]
    grind

theorem count_dropKey : (s.dropKey node k).count + (s.dropKey node k).entries.size =
    s.count + s.entries.size := by
  unfold dropKey
  split
  · rfl
  next en h =>
    have hk : k ∈ s.entries := by simp [Std.ExtTreeMap.mem_iff_isSome_getElem?, h]
    have hpos : s.entries.size ≠ 0 := fun hs => by
      rw [← Std.ExtTreeMap.eq_empty_iff_size_eq_zero] at hs
      simp [hs] at hk
    have hsize := s.entries.size_erase (k := k)
    rw [if_pos (Std.ExtTreeMap.contains_iff_mem.2 hk)] at hsize
    dsimp only
    omega

theorem entries_foldl_dropKey {keys : List Key} :
    (keys.foldl (dropKey node) s).entries[m]? = if m ∈ keys then none else s.entries[m]? := by
  induction keys generalizing s with
  | nil => simp
  | cons k keys ih =>
    rw [List.foldl_cons, ih, entries_dropKey]
    grind

theorem readers_foldl_dropKey {keys : List Key} :
    m ∈ (keys.foldl (dropKey node) s).readers.keysOf n ↔
      m ∈ s.readers.keysOf n ∧
        ¬(m ∈ keys ∧ n ≠ node ∧ ∃ en, s.entries[m]? = some en ∧ n ∈ en.reads) := by
  induction keys generalizing s with
  | nil => simp
  | cons k keys ih =>
    rw [List.foldl_cons, ih, readers_dropKey, entries_dropKey, List.mem_cons]
    grind

theorem count_foldl_dropKey {keys : List Key} :
    (keys.foldl (dropKey node) s).count + (keys.foldl (dropKey node) s).entries.size =
      s.count + s.entries.size := by
  induction keys generalizing s with
  | nil => rfl
  | cons k keys ih => exact ih.trans count_dropKey

theorem entries_dropNode : (s.dropNode node).entries[m]? =
    if m ∈ s.readers.keysOf node then none else s.entries[m]? := by
  unfold dropNode Readers.keysOf
  split
  next h => simp [h]
  next keys h => rw [entries_foldl_dropKey, h]; simp

theorem readers_dropNode : m ∈ (s.dropNode node).readers.keysOf n ↔
    m ∈ s.readers.keysOf n ∧ n ≠ node ∧
      ¬(m ∈ s.readers.keysOf node ∧ ∃ en, s.entries[m]? = some en ∧ n ∈ en.reads) := by
  unfold dropNode
  split
  next h =>
    have : ∀ k, k ∉ s.readers.keysOf node := by simp [Readers.keysOf, h]
    grind
  next keys h =>
    have : s.readers.keysOf node = keys := by simp [Readers.keysOf, h]
    rw [readers_foldl_dropKey, Readers.mem_keysOf_erase, Std.ExtTreeSet.mem_toList]
    grind

theorem count_dropNode : (s.dropNode node).count + (s.dropNode node).entries.size =
    s.count + s.entries.size := by
  unfold dropNode
  split
  · rfl
  · exact count_foldl_dropKey

end Sweep

/-! ## Agreement with the table -/

namespace Readers

variable {r : Readers} {t : Table} {d : Nat × Table} {k : Key} {n node : NodeId}

/-- A node has the keys of those answers that it drops, were they there; those that are not there it
drops for what they have replaced. So the readers agree with `Table.isReader`. -/
def Of (r : Readers) (t : Table) : Prop :=
  ∀ n k, k ∈ r.keysOf n ↔ n ∈ t.former k ∨ ∃ en, t.entries[k]? = some en ∧ n ∈ en.reads

theorem Of.of_eq {t' : Table} (h : r.Of t) (he : t'.entries = t.entries)
    (hs : t'.superseded = t.superseded) : r.Of t' := by
  intro n k
  rw [h n k, Table.former, Table.former, he, hs]

theorem Of.of_passes {f : Frame} {t' : Table} (h : r.Of t) (ht : t.Passes f t') : r.Of t' :=
  h.of_eq ht.entries ht.superseded

theorem Of.isReader (h : r.Of t) {en : Entry} (hen : t.entries[k]? = some en) :
    t.isReader n k en ↔ k ∈ r.keysOf n := by
  rw [h n k, Table.isReader_iff]
  grind

/-- Both ways of dropping the answers of a node come to the same. -/
theorem Of.dropNode (h : r.Of d.2) (node : NodeId) :
    let s := Sweep.dropNode ⟨d.1, d.2.entries, r⟩ node
    s.count = (Table.dropReaders d node).1 ∧ s.entries = (Table.dropReaders d node).2.entries ∧
      s.readers.Of (Table.dropReaders d node).2 := by
  intro s
  have hentries : s.entries = (Table.dropReaders d node).2.entries := by
    refine Std.ExtTreeMap.ext_getElem? fun {k} => Option.ext fun en => ?_
    rw [Sweep.entries_dropNode, Table.getElem?_dropReaders, Option.filter_eq_some_iff]
    have hreader (hen : d.2.entries[k]? = some en) : d.2.isReader node k en ↔ k ∈ r.keysOf node :=
      h.isReader hen
    grind
  have hcount : s.count + s.entries.size = d.1 + d.2.entries.size := Sweep.count_dropNode
  have hcount' := Table.size_dropReaders d node
  refine ⟨by rw [hentries] at hcount; omega, hentries, fun n k => ?_⟩
  rw [Sweep.readers_dropNode, Table.mem_former_dropReaders, Table.getElem?_dropReaders, h n k]
  have hreader (en : Entry) (hen : d.2.entries[k]? = some en) :
      d.2.isReader node k en ↔ k ∈ r.keysOf node := h.isReader hen
  have hnode := h node k
  simp only [Option.filter_eq_some_iff]
  grind

theorem Of.dropNodes (h : r.Of d.2) (nodes : List NodeId) :
    let s := nodes.foldl Sweep.dropNode ⟨d.1, d.2.entries, r⟩
    s.count = (nodes.foldl Table.dropReaders d).1 ∧
      s.entries = (nodes.foldl Table.dropReaders d).2.entries ∧
      s.readers.Of (nodes.foldl Table.dropReaders d).2 := by
  induction nodes generalizing d r with
  | nil => exact ⟨rfl, rfl, h⟩
  | cons node nodes ih =>
    obtain ⟨hcount, hentries, hreaders⟩ := h.dropNode node
    have ih := ih hreaders
    rwa [← hcount, ← hentries] at ih

theorem Of.invalidate (h : r.Of t) (nodes : List NodeId) :
    let s := nodes.foldl Sweep.dropNode ⟨0, t.entries, r⟩
    s.count = (t.invalidate nodes).1 ∧ s.entries = (t.invalidate nodes).2.entries ∧
      s.readers.Of (t.invalidate nodes).2 := by
  obtain ⟨hcount, hentries, hreaders⟩ := Of.dropNodes (d := (0, t)) h nodes
  exact ⟨hcount, hentries.trans (Table.count_frames _ _).2.symm,
    hreaders.of_eq (Table.count_frames _ _).2 (Table.superseded_count _ _)⟩

/-- The nodes that were read for an answer are still known when another one takes its place. -/
theorem Of.file (h : r.Of t) (k : Key) (en : Entry) :
    (r.add k en.reads.toList).Of (t.file k en) := by
  intro n m
  have hformer : n ∈ (t.file k en).former m ↔
      n ∈ t.former m ∨ m = k ∧ ∃ old, t.entries[k]? = some old ∧ n ∈ old.reads := by
    unfold Table.former Table.file
    cases t.entries[k]? with
    | none => simp
    | some old =>
      dsimp only
      rw [Tables.getElem?_insert]
      split <;> simp_all [Std.ExtTreeSet.mem_union_iff]
  have hentries : (t.file k en).entries[m]? = if m = k then some en else t.entries[m]? :=
    Tables.getElem?_insert ..
  rw [mem_keysOf_add, h n m, hformer, hentries, Std.ExtTreeSet.mem_toList]
  grind

theorem Of.finish (h : r.Of t) (k : Key) (a : Answer) :
    (r.act t (.finish k a)).Of (t.finish k a) := by
  have hleft : r.Of (t.leave.2.count fun s => { s with computations := s.computations + 1 }) :=
    h.of_eq ((Table.count_frames _ _).2.trans (Table.leave_entries t))
      ((Table.superseded_count _ _).trans (Table.superseded_leave t))
  unfold Readers.act Table.finish
  dsimp only
  split
  · exact hleft
  · exact hleft.file k ⟨a, t.leave.1.reads⟩

/-- Whatever is done to the table, each node keeps the right keys: only filing (`Of.file`) and
dropping (`Of.dropNode`) make a difference. -/
theorem Of.act (h : r.Of t) (a : Act) : (r.act t a).Of (t.act a) := by
  cases a with
  | enter | advance => exact h
  | read id => exact h.of_passes (.read t id)
  | readAll nodes => exact h.of_passes (.readAll t nodes)
  | lookup k =>
    obtain ⟨_, hk⟩ := Table.Passes.lookup t k
    exact h.of_passes hk
  | markCyclic => exact h.of_passes (.markCyclic t)
  | leave => exact h.of_eq (Table.leave_entries t) (Table.superseded_leave t)
  | finish k a => exact h.finish k a
  | invalidate nodes => exact (h.invalidate nodes).2.2
  | clear =>
    intro n k
    simp [Readers.act, keysOf, Table.act, Table.clear, Table.former]

theorem Of.after (h : r.Of t) (acts : List Act) : (r.after t acts).Of (acts.foldl Table.act t) := by
  induction acts generalizing t r with
  | nil => exact h
  | cons a acts ih => exact ih (h.act a)

/-- After any history the readers of the nodes lead to the answers that are to be dropped, each of
them once, and to no others. -/
theorem sweep_eq_invalidate (counting : Bool) (acts : List Act) (nodes : List NodeId) :
    let t := Table.after counting acts
    let s := nodes.foldl Sweep.dropNode ⟨0, t.entries, after ∅ (.empty counting) acts⟩
    s.count = (t.invalidate nodes).1 ∧ s.entries = (t.invalidate nodes).2.entries := by
  have h : Of ∅ (Table.empty counting) := fun n k => by simp [keysOf, Table.former, Table.empty]
  obtain ⟨hcount, hentries, -⟩ := (h.after acts).invalidate nodes
  exact ⟨hcount, hentries⟩

end Readers

end Dataflow.Memo
