import Dataflow.Proofs.Engine.Contract
import Dataflow.Proofs.Engine.Retention

/-! What is worked out in a run, and what that costs.

A log goes along with a run and notes each answer that is worked out (`Engine.log`). Where no
question comes up again while it is being worked out (`Engine.Once`), every answer in the log is
filed, none of them twice, and the statistics count as many look-ups in vain and as many
computations as the log is long: the `Books` of the run are in order. -/

namespace Dataflow

open Memo (Table Key Entry Frame Answer)
open Memo.Table (Retains)

/-- The work on one answer: the table when it began, and the table when it had ended, before
anything was filed. -/
structure Computation where
  key : Key
  before : Table
  after : Table

/-! ## The log of a run -/

/-- What is worked out for the questions of a plan, one after the other. -/
def Plan.log {α : Type} (answer : (q : Query) → Engine.Work q.Answer)
    (log : Query → Table → List Computation) : Plan α → Table → List Computation
  | done _, _ => []
  | ask q next, t =>
    log q t ++
      match answer q t with
      | some (a, t) => (next a).log answer log t
      | none => []

/-- What is worked out for an answer that is neither remembered nor in progress: what comes up for
it, and then the answer itself. -/
def Slot.log {α : Type} (slot : Slot α) (p : Plan α)
    (answer : List Key → (q : Query) → Engine.Work q.Answer)
    (log : List Key → Query → Table → List Computation) (working : List Key) (t : Table) :
    List Computation :=
  let (found, before) := t.lookup slot.key
  if (found.bind slot.unwrap).isSome ∨ slot.key ∈ working then []
  else
    let working := slot.key :: working
    let start := before.enter.read slot.key.node
    p.log (answer working) (log working) start ++
      match p.run (answer working) start with
      | some (_, after) => [⟨slot.key, before, after⟩]
      | none => []

def Method.log (answer : List Key → (q : Query) → Engine.Work q.Answer)
    (log : List Key → Query → Table → List Computation) (working : List Key) :
    {α : Type} → Method α → Table → List Computation
  | _, known _ _, _ => []
  | _, plan p, t => p.log (answer working) (log working) t
  | _, framed p, t => p.log (answer working) (log working) t.enter
  | _, remembered early slot p _, t => slot.log p answer log working (t.readAll (slot.early early))

namespace Engine

/-- What is worked out for a question that is answered at most `depth` questions deep. -/
def log (e : Engine) : (depth : Nat) → (working : List Key) → Query → Table → List Computation
  | 0, _, _, _ => []
  | depth + 1, working, q, t => (e.method q).log (e.answer depth) (e.log depth) working t

/-- What is worked out when a plan is carried out. -/
def computations {α : Type} (e : Engine) (p : Plan α) (t : Table) : List Computation :=
  p.log (e.answer (depth e.graph) []) (e.log (depth e.graph) []) t

end Engine

/-! ## What a log comes to -/

/-- The work has worked out what the log says: no answer that was there, none that was being worked
out, and none twice. All of it was filed and counted, and nothing was cut short. Made for no work by
`Books.nil`, for work one after the other by `Books.trans`, and for one answer by `Books.finish`. -/
structure Memo.Table.Books (working : List Key) (t : Table) (log : List Computation) (t' : Table) :
    Prop where
  vacant : ∀ c ∈ log, c.key ∉ c.before.entries ∧ c.key ∉ c.after.entries
  idle : ∀ c ∈ log, c.key ∉ working
  fresh : ∀ c ∈ log, c.key ∉ t.entries
  nodup : (log.map Computation.key).Nodup
  mem : ∀ {k}, k ∈ t'.entries ↔ k ∈ t.entries ∨ k ∈ log.map Computation.key
  size : t'.entries.size = t.entries.size + log.length
  isCounting : t'.isCounting = t.isCounting
  misses : t.isCounting → t'.statistics.misses = t.statistics.misses + log.length
  computations : t.isCounting →
    t'.statistics.computations = t.statistics.computations + log.length
  invalidations : t'.statistics.invalidations = t.statistics.invalidations
  frames : ∃ f : Frame, f.cyclic = false ∧ t'.frames = t.frames.modifyHead (·.absorb f)

namespace Memo.Table

variable {working : List Key} {t t' t'' : Table} {k : Key} {log log' : List Computation}

/-- Nothing was counted but look-ups that found an answer. -/
structure Uncounted (t t' : Table) : Prop where
  isCounting : t'.isCounting = t.isCounting
  misses : t'.statistics.misses = t.statistics.misses
  computations : t'.statistics.computations = t.statistics.computations
  invalidations : t'.statistics.invalidations = t.statistics.invalidations

namespace Uncounted

theorem of_eq (hc : t'.isCounting = t.isCounting) (hs : t'.statistics = t.statistics) :
    Uncounted t t' :=
  ⟨hc, by rw [hs], by rw [hs], by rw [hs]⟩

theorem trans (h : Uncounted t t') (h' : Uncounted t' t'') : Uncounted t t'' :=
  ⟨h'.isCounting.trans h.isCounting, h'.misses.trans h.misses,
    h'.computations.trans h.computations, h'.invalidations.trans h.invalidations⟩

theorem onFrame (t : Table) (f : Frame → Frame) : Uncounted t (t.onFrame f) := by
  unfold Table.onFrame
  cases t.frames <;> exact .of_eq rfl rfl

theorem leave (t : Table) : Uncounted t t.leave.2 := by
  unfold Table.leave
  cases t.frames with
  | nil => exact .of_eq rfl rfl
  | cons top rest =>
    have hpop : Uncounted t { t with frames := rest } := .of_eq rfl rfl
    exact hpop.trans (.onFrame _ _)

theorem lookup_hit {en : Entry} (h : t.entries[k]? = some en) : Uncounted t (t.lookup k).2 := by
  simp only [Table.lookup, h]
  have hread : Uncounted t (t.readAll en.reads) := .onFrame t _
  refine hread.trans ?_
  unfold Table.count
  split <;> exact ⟨rfl, rfl, rfl, rfl⟩

end Uncounted

/-- A look-up that finds nothing is counted. -/
theorem lookup_miss_counts (h : t.entries[k]? = none) :
    (t.lookup k).2.isCounting = t.isCounting ∧
      (t.lookup k).2.statistics.misses = t.statistics.misses + (if t.isCounting then 1 else 0) ∧
      (t.lookup k).2.statistics.computations = t.statistics.computations ∧
      (t.lookup k).2.statistics.invalidations = t.statistics.invalidations := by
  simp only [lookup, h, count]
  split <;> simp_all

/-- An answer that is worked out is counted. -/
theorem finish_counts (t : Table) (k : Key) (a : Answer) :
    (t.finish k a).isCounting = t.isCounting ∧
      (t.finish k a).statistics.misses = t.statistics.misses ∧
      (t.finish k a).statistics.computations =
        t.statistics.computations + (if t.isCounting then 1 else 0) ∧
      (t.finish k a).statistics.invalidations = t.statistics.invalidations := by
  obtain ⟨hc, hm, hcomp, hi⟩ := Uncounted.leave t
  rw [← hc, ← hm, ← hcomp, ← hi]
  simp only [finish, count]
  cases hct : t.leave.2.isCounting <;> cases t.leave.1.cyclic <;> simp [file, hct]

namespace Books

/-- Work that works nothing out. -/
theorem nil {f : Frame} (h : t.Passes f t') (hf : f.cyclic = false) (hc : t.Uncounted t') :
    Books working t [] t' where
  vacant _ h := nomatch h
  idle _ h := nomatch h
  fresh _ h := nomatch h
  nodup := .nil
  mem := by simp [h.entries]
  size := by simp [h.entries]
  isCounting := hc.isCounting
  misses _ := hc.misses
  computations _ := hc.computations
  invalidations := hc.invalidations
  frames := ⟨f, hf, h.frames⟩

theorem trans (h : Books working t log t') (h' : Books working t' log' t'') :
    Books working t (log ++ log') t'' where
  vacant c hc := (List.mem_append.1 hc).elim (h.vacant c) (h'.vacant c)
  idle c hc := (List.mem_append.1 hc).elim (h.idle c) (h'.idle c)
  fresh c hc := (List.mem_append.1 hc).elim (h.fresh c) fun hc hk =>
    h'.fresh c hc (h.mem.2 (.inl hk))
  nodup := by
    rw [List.map_append, List.nodup_append]
    refine ⟨h.nodup, h'.nodup, ?_⟩
    rintro k hk k' hk' rfl
    obtain ⟨c, hc, rfl⟩ := List.mem_map.1 hk'
    exact h'.fresh c hc (h.mem.2 (.inr hk))
  mem := by
    intro k
    rw [h'.mem, h.mem, List.map_append, List.mem_append, or_assoc]
  size := by rw [h'.size, h.size, List.length_append, Nat.add_assoc]
  isCounting := h'.isCounting.trans h.isCounting
  misses ht := by
    rw [h'.misses (h.isCounting ▸ ht), h.misses ht, List.length_append, Nat.add_assoc]
  computations ht := by
    rw [h'.computations (h.isCounting ▸ ht), h.computations ht, List.length_append, Nat.add_assoc]
  invalidations := h'.invalidations.trans h.invalidations
  frames := by
    obtain ⟨f, hf, hfs⟩ := h.frames
    obtain ⟨g, hg, hgs⟩ := h'.frames
    exact ⟨f.absorb g, by simp [hf, hg], by rw [hgs, hfs, modifyHead_absorb]⟩

/-- Work in a frame of its own. -/
theorem leave (h : Books working t.enter log t') : Books working t log t'.leave.2 := by
  obtain ⟨f, hf, hfs⟩ := h.frames
  rw [show t.enter.frames = .empty :: t.frames from rfl, List.modifyHead_cons,
    Frame.empty_absorb] at hfs
  obtain ⟨-, hfs, he⟩ := leave_frames hfs
  have hc := Uncounted.leave t'
  exact ⟨h.vacant, h.idle, h.fresh, h.nodup, by rw [he]; exact h.mem, by rw [he]; exact h.size,
    hc.isCounting.trans h.isCounting, fun ht => hc.misses.trans (h.misses ht),
    fun ht => hc.computations.trans (h.computations ht),
    hc.invalidations.trans h.invalidations, f, hf, hfs⟩

/-- Nothing cuts the work on an answer short that was not remembered. -/
theorem uncut (hk : t.entries[k]? = none)
    (h : Books (k :: working) ((t.lookup k).2.enter.read k.node) log t') :
    ∃ f : Frame, f.cyclic = false ∧ t'.frames = f :: t.frames := by
  obtain ⟨f, hf, hfs⟩ := h.frames
  rw [enter_read_frames, (Passes.lookup_miss hk).2.frames, modifyHead_empty,
    List.modifyHead_cons] at hfs
  exact ⟨(Frame.reading {k.node}).absorb f, hf, hfs⟩

/-- What was worked out is then filed. -/
theorem entries_finish (hk : t.entries[k]? = none)
    (h : Books (k :: working) ((t.lookup k).2.enter.read k.node) log t') (a : Answer) :
    ∃ reads, (t'.finish k a).entries = t'.entries.insert k ⟨a, reads⟩ := by
  obtain ⟨f, hf, hfs⟩ := h.uncut hk
  exact ⟨f.reads, by rw [finish_entries hfs, hf, if_neg Bool.false_ne_true]⟩

/-- The work on an answer that was not remembered: what comes up for it, and the answer itself. -/
theorem finish (hk : t.entries[k]? = none) (hw : k ∉ working)
    (h : Books (k :: working) ((t.lookup k).2.enter.read k.node) log t') (a : Answer) :
    Books working t (log ++ [⟨k, (t.lookup k).2, t'⟩]) (t'.finish k a) := by
  obtain ⟨-, hlook⟩ := Passes.lookup_miss hk
  obtain ⟨f, hcyclic, hfs⟩ := h.uncut hk
  obtain ⟨reads, hentries⟩ := h.entries_finish hk a
  obtain ⟨hc, hm, hcomp, hi⟩ := lookup_miss_counts hk
  obtain ⟨hc', hm', hcomp', hi'⟩ := finish_counts t' k a
  have hstart {k' : Key} : k' ∈ ((t.lookup k).2.enter.read k.node).entries ↔ k' ∈ t.entries := by
    rw [enter_read_entries, hlook.entries]
  have hnew : k ∉ t.entries := by
    rw [Std.ExtTreeMap.mem_iff_isSome_getElem?, hk]
    exact Bool.false_ne_true
  have hnew' : k ∉ t'.entries := by
    rw [h.mem, hstart, not_or]
    refine ⟨hnew, fun hmem => ?_⟩
    obtain ⟨c, hc, rfl⟩ := List.mem_map.1 hmem
    exact h.idle c ‹_› List.mem_cons_self
  have hlog {motive : Computation → Prop} (hall : ∀ c ∈ log, motive c)
      (hlast : motive ⟨k, (t.lookup k).2, t'⟩) :
      ∀ c ∈ log ++ [⟨k, (t.lookup k).2, t'⟩], motive c :=
    List.forall_mem_append.2 ⟨hall, List.forall_mem_singleton.2 hlast⟩
  exact {
    vacant := hlog h.vacant ⟨by rwa [hlook.entries], hnew'⟩
    idle := hlog (fun c hc hw => h.idle c hc (.tail _ hw)) hw
    fresh := hlog (fun c hc hk => h.fresh c hc (hstart.2 hk)) hnew
    nodup := by
      rw [List.map_append, List.nodup_append]
      refine ⟨h.nodup, List.nodup_singleton _, ?_⟩
      rintro k' hk' _ hk rfl
      obtain rfl := List.mem_singleton.1 hk
      exact hnew' (h.mem.2 (.inr hk'))
    mem := by
      intro k'
      rw [hentries, Std.ExtTreeMap.mem_insert, Std.LawfulEqCmp.compare_eq_iff_eq, h.mem, hstart,
        List.map_append, List.mem_append, List.map_singleton, List.mem_singleton, eq_comm]
      tauto
    size := by
      rw [hentries, Std.ExtTreeMap.size_insert, if_neg (by rwa [Std.ExtTreeMap.contains_iff_mem]),
        h.size, enter_read_entries,
        hlook.entries, List.length_append, List.length_singleton, Nat.add_assoc]
    isCounting := hc'.trans (h.isCounting.trans hc)
    misses := fun ht => by
      rw [hm', h.misses (hc.trans ht), List.length_append, List.length_singleton]
      change (t.lookup k).2.statistics.misses + _ = _
      rw [hm, if_pos ht]
      omega
    computations := fun ht => by
      rw [hcomp', if_pos (h.isCounting.trans (hc.trans ht)), h.computations (hc.trans ht),
        List.length_append, List.length_singleton]
      change (t.lookup k).2.statistics.computations + _ + 1 = _
      rw [hcomp, Nat.add_assoc]
    invalidations := hi'.trans (h.invalidations.trans hi)
    frames := ⟨_, hcyclic, finish_frames hfs⟩ }

end Books
end Memo.Table

/-! ## Logs of plans -/

open Memo.Table (Books)

namespace Engine

/-- No question comes up again while it is being worked out. -/
def Once (e : Engine) (C : Contract) : Prop :=
  ∀ {working q k}, C.asks working q → (e.method q).key? = some k → k ∉ working

variable {α : Type} {C : Contract} {working : List Key} {t t' : Table} {a : α}

/-- A table in which all answers are what the contract says, and fit their keys. -/
def Kept (C : Contract) (t : Table) : Prop := t.Holds C.filed ∧ t.Holds Key.Fits

theorem run_books {P : Query → Prop} {Q : α → Prop} {f : (q : Query) → Work q.Answer}
    {log : Query → Table → List Computation}
    (hf : ∀ {q t a t'}, P q → Kept C t → f q t = some (a, t') →
      Books working t (log q t) t' ∧ C.good q a ∧ Kept C t')
    {p : Plan α} (hp : p.Ends P C.good Q) (ht : Kept C t) (h : p.run f t = some (a, t')) :
    Books working t (p.log f log t) t' := by
  induction p generalizing t with
  | done b =>
    cases h
    exact .nil (.refl _) rfl (.of_eq rfl rfl)
  | ask q next ih =>
    obtain ⟨b, t₁, hq, hn⟩ := run_ask_some.1 h
    obtain ⟨hb, hgood, ht₁⟩ := hf hp.1 ht hq
    rw [Plan.log, hq]
    exact hb.trans (ih b (hp.2 b hgood) ht₁ hn)

/-- What is remembered is taken from the table, and what is not is worked out. -/
theorem remember_books {f : List Key → (q : Query) → Work q.Answer}
    {log : List Key → Query → Table → List Computation} {slot : Slot α} {p : Plan α}
    (hs : slot.Sorts) (hw : slot.key ∉ working)
    (hp : ∀ {t b t'}, Kept C t → p.run (f (slot.key :: working)) t = some (b, t') →
      Books (slot.key :: working) t
        (p.log (f (slot.key :: working)) (log (slot.key :: working)) t) t')
    (ht : Kept C t)
    (h : remember slot.key slot.onCycle slot.wrap slot.unwrap working
      (fun working => p.run (f working)) t = some (a, t')) :
    Books working t (slot.log p f log working t) t' := by
  unfold Slot.log
  dsimp only
  cases hen : t.entries[slot.key]? with
  | some en =>
    obtain ⟨b, hb⟩ := Option.isSome_iff_exists.1 (hs.unwrap (ht.2 _ en hen))
    obtain ⟨hfound, hpass⟩ := Table.Passes.lookup_hit hen
    rw [remember_hit hen hb] at h
    cases h
    rw [if_pos (.inl (by rw [hfound, Option.bind_some, hb]; rfl))]
    exact .nil hpass rfl (.lookup_hit hen)
  | none =>
    obtain ⟨hfound, hpass⟩ := Table.Passes.lookup_miss hen
    obtain ⟨t₁, hrun, rfl⟩ := (remember_miss hen hw).1 h
    rw [if_neg (by simp [hfound, hw]), hrun]
    have hstart :=
      (Table.enter_read_entries (t.lookup slot.key).2 slot.key.node).trans hpass.entries
    exact (hp ⟨ht.1.of_entries hstart, ht.2.of_entries hstart⟩ hrun).finish hen hw _

theorem work_books {f : List Key → (q : Query) → Work q.Answer}
    {log : List Key → Query → Table → List Computation}
    (hf : ∀ {ks q t a t'}, C.asks ks q → Kept C t → f ks q t = some (a, t') →
      Books ks t (log ks q t) t' ∧ C.good q a ∧ Kept C t')
    {m : Method α} {Q : α → Prop} (hm : m.Obeys C working Q) (hs : m.Sorts)
    (ho : ∀ k, m.key? = some k → k ∉ working) (ht : Kept C t)
    (h : m.work f working t = some (a, t')) : Books working t (m.log f log working t) t' := by
  cases m with
  | known b reads =>
    cases h
    exact .nil (.readAll t reads) rfl (.onFrame t _)
  | plan p => exact run_books hf hm ht h
  | framed p =>
    obtain ⟨⟨b, t₁⟩, hp, h⟩ := Option.bind_eq_some_iff.1 h
    cases h
    exact (run_books hf hm ⟨ht.1.enter, ht.2.enter⟩ hp).leave
  | remembered early slot p view =>
    obtain ⟨b, hb, -⟩ := map_some.1 h
    have hw := ho _ rfl
    have hread : Books working t [] (t.readAll (slot.early early)) :=
      .nil (.readAll t _) rfl (.onFrame t _)
    exact hread.trans (remember_books hs hw (fun ht hp => run_books hf (hm.work hw) ht hp)
      ⟨ht.1.readAll _, ht.2.readAll _⟩ hb)

variable {e : Engine} {d : Nat} {q : Query}

theorem Keeps.kept (h : e.Keeps C) {a : q.Answer} (hq : C.asks working q) (ht : Kept C t)
    (hr : e.answer d working q t = some (a, t')) : C.good q a ∧ Kept C t' := by
  obtain ⟨ha, ht'⟩ := (h.answer hq ht.1).good hr
  exact ⟨ha, ht', (answer_retains hr).fits ht.2⟩

/-- Where no question comes up again while it is being worked out, nothing is worked out that is
remembered, nothing is worked out twice, and all that is worked out is remembered. By induction on
the depth, through `remember_books`. -/
theorem Keeps.books (h : e.Keeps C) (ho : e.Once C) {a : q.Answer} (hq : C.asks working q)
    (ht : Kept C t) (hr : e.answer d working q t = some (a, t')) :
    Books working t (e.log d working q t) t' := by
  induction d generalizing working q t t' with
  | zero => cases hr
  | succ d ih =>
    rw [answer_succ] at hr
    exact work_books (fun hq ht hr => ⟨ih hq ht hr, h.kept hq ht hr⟩) (h _ _ hq)
      (e.method_sorts q) (fun _ => ho hq) ht hr

end Engine

end Dataflow
