import Dataflow.Proofs.Memo.History

/-! Frames that are opened and closed in pairs (`Paired`).

What a frame holds when it is closed is what was read since it was opened, be it in frames inside
it, and whether a cycle was noted since (`Table.collected`). What lies beside it leaves nothing in
it, and the frame around it takes over what it holds as a whole. -/

namespace Dataflow.Memo

namespace Act

/-- What an act adds to the frame it is done in. For an answer that is found those nodes count which
it has read by then. -/
def brings (t : Table) : Act → Frame
  | read node => .reading {node}
  | readAll nodes => .reading nodes
  | lookup k => .reading ((t.entries[k]?.map Entry.reads).getD ∅)
  | markCyclic => .cut
  | _ => .empty

/-- A frame is closed. -/
def Closes : Act → Prop
  | leave | finish _ _ => True
  | _ => False

/-- No frame is opened, closed or forgotten. -/
def Inner : Act → Prop
  | enter | leave | finish _ _ | clear => False
  | _ => True

/-- The number of open frames after an act. None is closed but an open one, and nothing is forgotten
while one is open. -/
def opened? (n : Nat) : Act → Option Nat
  | enter => some (n + 1)
  | leave | finish _ _ => if n = 0 then none else some (n - 1)
  | clear => if n = 0 then some n else none
  | _ => some n

end Act

/-- A run in which each frame that is opened is closed again. -/
def Paired (acts : List Act) : Prop := acts.foldlM Act.opened? 0 = some 0

instance (acts : List Act) : Decidable (Paired acts) := inferInstanceAs (Decidable (_ = _))

/-- What may be done while a frame is open: each frame that is opened in the meantime is closed in
the meantime. In a run that is `Paired`, every opening is followed by such acts and a closing
(`exists_closing`). -/
inductive Bracketed : List Act → Prop
  | nil : Bracketed []
  | inner {a : Act} {acts : List Act} : a.Inner → Bracketed acts → Bracketed (a :: acts)
  | bracket {body : List Act} {c : Act} {acts : List Act} :
    Bracketed body → c.Closes → Bracketed acts → Bracketed (.enter :: (body ++ c :: acts))

variable {t : Table} {a c : Act} {acts before body rest : List Act} {n : Nat} {node : NodeId}

/-! ## Pairs -/

namespace Act

theorem kinds (a : Act) : a = enter ∨ a = clear ∨ a.Closes ∨ a.Inner := by
  cases a <;> simp [Closes, Inner]

theorem Closes.opened? (h : c.Closes) : c.opened? (n + 1) = some n := by
  cases c with
  | leave | finish => rfl
  | _ => cases h

theorem Inner.opened? (h : a.Inner) : a.opened? n = some n := by
  cases a with
  | enter | leave | finish | clear => cases h
  | _ => rfl

end Act

/-- An open frame is closed, and in between all frames are closed that are opened. -/
theorem exists_closing (n : Nat) (rest : List Act) (h : rest.foldlM Act.opened? (n + 1) = some 0) :
    ∃ body c after, rest = body ++ c :: after ∧ Bracketed body ∧ c.Closes ∧
      after.foldlM Act.opened? n = some 0 := by
  match rest with
  | [] => cases h
  | a :: acts =>
    rw [List.foldlM_cons] at h
    rcases a.kinds with rfl | rfl | ha | ha
    · -- a frame is opened inside: first its own closing, then the one that is looked for
      obtain ⟨body, c, after, hacts, hbody, hc, hafter⟩ := exists_closing (n + 1) acts h
      have hshorter : after.length < acts.length := by simp [hacts]; omega
      obtain ⟨body', c', after', rfl, hbody', hc', hafter'⟩ := exists_closing n after hafter
      subst hacts
      exact ⟨.enter :: (body ++ c :: body'), c', after', by simp, .bracket hbody hc hbody', hc',
        hafter'⟩
    · cases h
    · rw [ha.opened?] at h
      exact ⟨[], a, acts, rfl, .nil, ha, h⟩
    · rw [ha.opened?] at h
      obtain ⟨body, c, after, rfl, hbody, hc, hafter⟩ := exists_closing n acts h
      exact ⟨a :: body, c, after, rfl, .inner ha hbody, hc, hafter⟩
termination_by rest.length
decreasing_by all_goals simp only [List.length_cons]; omega

theorem Paired.exists_closing (h : Paired (before ++ .enter :: rest)) :
    ∃ body c after, rest = body ++ c :: after ∧ Bracketed body ∧ c.Closes := by
  rw [Paired, List.foldlM_append] at h
  obtain ⟨n, -, h⟩ := Option.bind_eq_some_iff.1 h
  rw [List.foldlM_cons] at h
  obtain ⟨body, c, after, hrest, hbody, hc, -⟩ := Memo.exists_closing n rest h
  exact ⟨body, c, after, hrest, hbody, hc⟩

/-! ## What a frame collects -/

namespace Table

/-- What acts add, one after the other, to the frame that they are done in. -/
def collected (t : Table) : List Act → Frame
  | [] => .empty
  | a :: acts => (a.brings t).absorb ((t.act a).collected acts)

theorem collected_append (t : Table) (acts acts' : List Act) :
    t.collected (acts ++ acts') =
      (t.collected acts).absorb ((acts.foldl act t).collected acts') := by
  induction acts generalizing t with
  | nil => simp [collected]
  | cons a acts ih => rw [List.cons_append, collected, collected, ih, Frame.absorb_assoc]; rfl

theorem mem_reads_collected : node ∈ (t.collected acts).reads ↔
    ∃ before a after, acts = before ++ a :: after ∧
      node ∈ (a.brings (before.foldl act t)).reads := by
  induction acts generalizing t with
  | nil => simp [collected, Frame.empty]
  | cons a acts ih =>
    rw [collected, Frame.absorb_reads, Std.ExtTreeSet.mem_union_iff, ih]
    constructor
    · rintro (h | ⟨before, b, after, rfl, h⟩)
      · exact ⟨[], a, acts, rfl, h⟩
      · exact ⟨a :: before, b, after, rfl, h⟩
    · rintro ⟨before, b, after, hacts, h⟩
      rcases List.cons_eq_append_iff.1 hacts with ⟨rfl, hacts⟩ | ⟨before, rfl, rfl⟩
      · cases hacts
        exact .inl h
      · exact .inr ⟨before, b, after, rfl, h⟩

theorem brings_cyclic : (a.brings t).cyclic ↔ a = .markCyclic := by
  cases a <;> simp [Act.brings, Frame.reading, Frame.cut, Frame.empty]

theorem cyclic_collected : (t.collected acts).cyclic ↔ .markCyclic ∈ acts := by
  induction acts generalizing t with
  | nil => simp [collected, Frame.empty]
  | cons a acts ih =>
    rw [collected, Frame.absorb_cyclic, Bool.or_eq_true, brings_cyclic, ih, List.mem_cons,
      @eq_comm _ a]

theorem frames_invalidate (t : Table) (nodes : List NodeId) :
    (t.invalidate nodes).2.frames = t.frames := by
  have hfold (d : Nat × Table) : (nodes.foldl dropReaders d).2.frames = d.2.frames := by
    induction nodes generalizing d with
    | nil => rfl
    | cons id ids ih => exact ih _
  simp only [invalidate, (count_frames _ _).1]
  exact hfold (0, t)

theorem reading_empty : Frame.reading ∅ = .empty := rfl

theorem frames_act (ha : a.Inner) (t : Table) :
    (t.act a).frames = t.frames.modifyHead (·.absorb (a.brings t)) := by
  cases a with
  | enter | leave | finish | clear => cases ha
  | read id => exact (Passes.read t id).frames
  | readAll nodes => exact (Passes.readAll t nodes).frames
  | markCyclic => exact (Passes.markCyclic t).frames
  | lookup k =>
    cases hk : t.entries[k]? with
    | none =>
      simp only [Act.brings, hk, Option.map_none, Option.getD_none, reading_empty]
      exact (Passes.lookup_miss hk).2.frames
    | some en =>
      simp only [Act.brings, hk, Option.map_some, Option.getD_some]
      exact (Passes.lookup_hit hk).2.frames
  | invalidate nodes => exact (frames_invalidate t nodes).trans (modifyHead_empty _).symm
  | advance => exact (modifyHead_empty _).symm

theorem frames_act_closes (hc : c.Closes) {f : Frame} {fs : List Frame} (h : t.frames = f :: fs) :
    (t.act c).frames = fs.modifyHead (·.absorb f) := by
  cases c with
  | leave => exact (leave_frames h).2.1
  | finish k a => exact finish_frames h
  | _ => cases hc

theorem brings_closes (hc : c.Closes) : c.brings t = .empty := by
  cases c with
  | leave | finish => rfl
  | _ => cases hc

/-- The innermost frame takes over what the acts add, and all others stay as they are. The induction
is on how the acts are bracketed. -/
theorem frames_bracketed (h : Bracketed acts) (t : Table) :
    (acts.foldl act t).frames = t.frames.modifyHead (·.absorb (t.collected acts)) := by
  induction h generalizing t with
  | nil => exact (modifyHead_empty _).symm
  | inner ha _ ih => rw [List.foldl_cons, ih, frames_act ha, modifyHead_absorb, collected]
  | @bracket body c acts _ hc _ ih ih' =>
    let opened := t.act .enter
    let closed := (body.foldl act opened).act c
    have hbody : (body.foldl act opened).frames = opened.collected body :: t.frames := by
      rw [ih]
      exact congrArg (· :: t.frames) (Frame.empty_absorb _)
    have hclosed : closed.frames = t.frames.modifyHead (·.absorb (opened.collected body)) :=
      frames_act_closes hc hbody
    have hsum : t.collected (.enter :: (body ++ c :: acts)) =
        (opened.collected body).absorb (closed.collected acts) := by
      rw [collected, collected_append, collected, brings_closes hc, Frame.empty_absorb]
      exact Frame.empty_absorb _
    rw [List.foldl_cons, List.foldl_append, List.foldl_cons, ih', hclosed, modifyHead_absorb, hsum]

/-- In a run whose frames are paired, each one that is opened is closed. What it holds then is what
was read in between, in the run or for the answers that were found in it, and it holds nothing else.
An answer is filed with that unless a cycle was noted in between. The frames around it are as they
were when it was opened, and the innermost of them takes over what it holds.

That there is a closing is `Paired.exists_closing`. By `frames_bracketed` the frame then holds what
was `collected`, of which `mem_reads_collected` and `cyclic_collected` tell what it is. -/
theorem brackets_exact (counting : Bool) {run : List Act} (h : Paired run) :
    (∀ before rest, run = before ++ .enter :: rest → ∃ body c after,
      rest = body ++ c :: after ∧ Bracketed body ∧ c.Closes) ∧
    ∀ before body c after, run = before ++ .enter :: (body ++ c :: after) → Bracketed body →
      c.Closes →
      let opened := (Table.after counting before).enter
      let closing := body.foldl act opened
      let held := closing.leave.1
      (∀ node, node ∈ held.reads ↔ ∃ earlier a later, body = earlier ++ a :: later ∧
        node ∈ (a.brings (earlier.foldl act opened)).reads) ∧
      (∀ k answer, (.markCyclic ∉ body → (closing.finish k answer).entries =
          closing.entries.insert k ⟨answer, held.reads⟩) ∧
        (.markCyclic ∈ body → (closing.finish k answer).entries = closing.entries)) ∧
      closing.frames = held :: (Table.after counting before).frames ∧
      (closing.act c).frames =
        (Table.after counting before).frames.modifyHead (·.absorb held) := by
  refine ⟨fun before rest hrun => (hrun ▸ h).exists_closing, ?_⟩
  intro before body c after _ hbody hc opened closing held
  have hframes :
      closing.frames = opened.collected body :: (Table.after counting before).frames := by
    rw [frames_bracketed hbody]
    exact congrArg (· :: _) (Frame.empty_absorb _)
  have hheld : held = opened.collected body := (leave_frames hframes).1
  rw [← hheld] at hframes
  refine ⟨fun node => ?_, fun k answer => ⟨fun hcut => ?_, fun hcut => ?_⟩, hframes,
    frames_act_closes hc hframes⟩
  · rw [hheld, mem_reads_collected]
  · rw [finish_entries hframes, if_neg fun h => hcut (cyclic_collected.1 (hheld ▸ h))]
  · rw [finish_entries hframes, if_pos (hheld ▸ cyclic_collected.2 hcut)]

def outputKey (node : NodeId) : Key := .inScope .value node [] "output"

/-- What is done for the answer at the node 0: one is filed at the node 1 and then found by some
work that runs into a cycle. -/
def cutShort : List Act :=
  [.read ⟨0⟩, .enter, .read ⟨1⟩, .finish (outputKey ⟨1⟩) (.value .nothing), .enter,
    .lookup (outputKey ⟨1⟩), .markCyclic, .leave]

/-- Afterwards the answer at the node 1 is found once more, for one at the node 2. -/
def resumed : List Act :=
  .enter :: (cutShort ++ [.finish (outputKey ⟨0⟩) (.value .nothing), .enter,
    .lookup (outputKey ⟨1⟩), .finish (outputKey ⟨2⟩) (.value .nothing)])

/-- The cycle keeps the answer at the node 0 from being filed, but not the one at the node 2. -/
theorem brackets_exact_resumed :
    let closing := cutShort.foldl act (after true []).enter
    let closing' := act (after true (resumed.take 10)).enter (.lookup (outputKey ⟨1⟩))
    Paired resumed ∧ ⟨1⟩ ∈ closing.leave.1.reads ∧
      (closing.finish (outputKey ⟨0⟩) (.value .nothing)).entries = closing.entries ∧
      ⟨1⟩ ∈ closing'.leave.1.reads ∧
      (closing'.finish (outputKey ⟨2⟩) (.value .nothing)).entries =
        closing'.entries.insert (outputKey ⟨2⟩) ⟨.value .nothing, closing'.leave.1.reads⟩ := by
  intro closing closing'
  have hpaired : Paired resumed := by decide
  have hcut : Bracketed cutShort :=
    .inner trivial (@Bracketed.bracket [.read ⟨1⟩] _ _ (.inner trivial .nil) trivial
      (@Bracketed.bracket [.lookup (outputKey ⟨1⟩), .markCyclic] _ _
        (.inner trivial (.inner trivial .nil)) trivial .nil))
  have exact := (brackets_exact true hpaired).2
  obtain ⟨hreads, hfiled, -⟩ := exact [] cutShort _ _ rfl hcut trivial
  obtain ⟨hreads', hfiled', -⟩ :=
    exact (resumed.take 10) [.lookup (outputKey ⟨1⟩)]
      (.finish (outputKey ⟨2⟩) (.value .nothing)) [] rfl (.inner trivial .nil) trivial
  refine ⟨hpaired, (hreads ⟨1⟩).2 ⟨[.read ⟨0⟩, .enter], .read ⟨1⟩, _, rfl, ?_⟩,
    (hfiled _ _).2 (by simp [cutShort]), (hreads' ⟨1⟩).2 ⟨[], _, [], rfl, ?_⟩,
    (hfiled' _ _).1 (by simp)⟩
  · exact Tables.mem_singleton.2 rfl
  · decide +kernel

end Table

end Dataflow.Memo
