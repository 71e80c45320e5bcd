import Mathlib.Data.Nat.Find
import Dataflow.Proofs.Engine.Plain
import Dataflow.Proofs.Engine.Run
import Dataflow.Proofs.Query.Ends

/-! Why what is remembered does no harm.

A table is `Sound` if each of its answers is the one that is found without a memory
(`Engine.plain`), with the nodes that are read for it. The engine keeps a table sound, since it
drops an answer that a cycle has cut short; and what it answers from a sound table is the answer
without a memory, wherever there is one. Where there is none, because a question comes back to
itself, nothing is remembered either, and the run is the same with any sound table.

The last part takes care. A question that is in progress is answered by a placeholder, and the
answer without a memory must not rest on one. So with every question in progress goes a depth at
which it would be answered, and the questions asked for it lie below (`Above`, `Under`). With this
the claim of `Domain.runs` goes by induction on the depth. -/

namespace Dataflow

open Memo (Table Key Entry Frame)

def Method.Within (P : Query → Prop) (right : (q : Query) → q.Answer → Prop) :
    {α : Type} → Method α → Prop
  | _, known _ _ => True
  | _, plan p => p.Within P right
  | _, framed p => p.Within P right
  | _, remembered _ _ p _ => p.Within P right

theorem Method.Within.weaken {P P' : Query → Prop} {right : (q : Query) → q.Answer → Prop}
    {α : Type} {m : Method α} (h : m.Within P right) (hP : ∀ q, P q → P' q) :
    m.Within P' right := by
  cases m with
  | known => trivial
  | _ => exact Plan.Ends.weaken h hP

namespace Engine

variable {o : Precedence}

/-- An answer that is the one without a memory, if there is such a one. -/
def Right (o : Precedence) (e : Engine) (q : Query) (a : q.Answer) : Prop :=
  ∀ d b reads, e.plain o d q = some (b, reads) → a = b

/-- Questions of `P` that give rise to no others. Of the questions that count in a table, those of
`K`, all with the key of one of them have its answer. For questions about types there is
`Engine.typesDomain`, for values `Engine.valueDomain`. -/
structure Domain (o : Precedence) (e : Engine) (P K : Query → Prop) : Prop where
  counted : ∀ {q}, P q → K q
  closed : ∀ {q}, P q → (e.method q).Within P (e.Right o)
  placed : ∀ {q}, P q → e.placed o q = e.method q ∨
    ∃ a reads d, e.method q = .known a reads ∧ e.plain o d q = some (a, reads)
  keyed : ∀ {q q' k}, P q → K q' → (e.method q).key? = some k → (e.method q').key? = some k →
    ∀ d, (e.method q).filed (e.plain o d) = (e.method q').filed (e.plain o d)

/-- Every answer of the table is what would be filed (`Method.filed`) for any question that counts
and has its key. -/
def Sound (o : Precedence) (e : Engine) (K : Query → Prop) (t : Table) : Prop :=
  ∀ k en, t.entries[k]? = some en → ∀ q, K q → (e.method q).key? = some k →
    ∃ d, (e.method q).filed (e.plain o d) = some (k, en)

variable {e : Engine} {P K : Query → Prop} {α : Type}

/-! ## Questions in progress -/

/-- The questions in progress have answers only at depths above `d`. -/
def Above (o : Precedence) (e : Engine) (P : Query → Prop) (working : List Key) (d : Nat) : Prop :=
  ∀ k ∈ working, ∀ q, P q → (e.method q).key? = some k → ∀ r, (e.plain o r q).isSome → d < r

/-- The questions in progress have no answers at all. -/
def Endless (o : Precedence) (e : Engine) (P : Query → Prop) (working : List Key) : Prop :=
  ∀ k ∈ working, ∀ q, P q → (e.method q).key? = some k → ∀ r, ¬(e.plain o r q).isSome

/-- What is defined at some depth below all questions in progress, if any of these is ever
answered. -/
def Under (o : Precedence) (e : Engine) (P : Query → Prop) (working : List Key)
    (defined : Nat → Prop) : Prop :=
  (∃ d, defined d ∧ e.Above o P working d) ∨ e.Endless o P working

theorem Above.mono {working : List Key} {d d' : Nat} (hd : d' ≤ d) (h : e.Above o P working d) :
    e.Above o P working d' :=
  fun k hk q hq hkey r hr => Nat.lt_of_le_of_lt hd (h k hk q hq hkey r hr)

theorem Under.mono {working : List Key} {f g : Nat → Prop} (h : e.Under o P working f)
    (hfg : ∀ d, f d → ∃ d' ≤ d, g d') : e.Under o P working g := by
  rcases h with ⟨d, hd, ha⟩ | h
  · obtain ⟨d', hle, hg⟩ := hfg d hd
    exact .inl ⟨d', hg, ha.mono hle⟩
  · exact .inr h

theorem Under.nil (f : Nat → Prop) : e.Under o P [] f := .inr fun _ h => by cases h

/-! ## What a run does -/

/-- A run on a sound table: it leaves the table sound, its answer is that without a memory if no
cycle cut it short, and no cycle does if there is an answer without a memory. -/
structure Outcome (o : Precedence) (e : Engine) (K : Query → Prop) (plain : Nat → Reading α)
    (t : Table) (a : α) (t' : Table) : Prop where
  sound : e.Sound o K t'
  frames : ∃ f : Frame, t'.frames = t.frames.modifyHead (·.absorb f) ∧
    (f.cyclic = false → ∃ d, plain d = some (a, f.reads)) ∧
    ∀ d b reads, plain d = some (b, reads) → b = a ∧ reads = f.reads ∧ f.cyclic = false

theorem Outcome.right {q : Query} {t t' : Table} {a : q.Answer}
    (h : e.Outcome o K (fun d => e.plain o d q) t a t') : e.Right o q a := by
  obtain ⟨_, f, -, -, hp⟩ := h
  exact fun d b reads hb => (hp d b reads hb).1.symm

/-- What holds of every question answered within `depth` questions. -/
def Runs (o : Precedence) (e : Engine) (P K : Query → Prop) (depth : Nat) : Prop :=
  ∀ {q : Query} {working : List Key} {t t' : Table} {a : q.Answer}, P q → e.Sound o K t →
    e.Under o P working (fun d => (e.plain o d q).isSome) →
    e.answer depth working q t = some (a, t') → e.Outcome o K (fun d => e.plain o d q) t a t'

/-- A question below those in progress, and the rest of the plan after it. -/
theorem Under.ask {working : List Key} {q : Query} {next : q.Answer → Plan α}
    (h : e.Under o P working fun d => ((Plan.ask q next).run (e.plain o d)).isSome) :
    e.Under o P working (fun d => (e.plain o d q).isSome) ∧
      ∀ a, e.Right o q a → e.Under o P working fun d => ((next a).run (e.plain o d)).isSome := by
  have split {d : Nat} (hd : ((Plan.ask q next).run (e.plain o d)).isSome) :
      ∃ a reads, e.plain o d q = some (a, reads) ∧ ((next a).run (e.plain o d)).isSome := by
    obtain ⟨⟨b, reads⟩, hb⟩ := Option.isSome_iff_exists.1 hd
    obtain ⟨a, r, s, hq, hn, -⟩ := Plan.run_ask_some.1 hb
    exact ⟨a, r, hq, Option.isSome_iff_exists.2 ⟨_, hn⟩⟩
  constructor
  · refine h.mono fun d hd => ⟨d, Nat.le_refl d, ?_⟩
    obtain ⟨a, reads, hq, -⟩ := split hd
    exact Option.isSome_iff_exists.2 ⟨_, hq⟩
  · intro a ha
    refine h.mono fun d hd => ⟨d, Nat.le_refl d, ?_⟩
    obtain ⟨b, reads, hq, hn⟩ := split hd
    rw [ha d b reads hq]
    exact hn

theorem Runs.plan {depth : Nat} (hr : e.Runs o P K depth) {working : List Key} {p : Plan α}
    (hw : p.Within P (e.Right o)) {t t' : Table} {a : α} (ht : e.Sound o K t)
    (hu : e.Under o P working fun d => (p.run (e.plain o d)).isSome)
    (h : p.run (e.answer depth working) t = some (a, t')) :
    e.Outcome o K (fun d => p.run (e.plain o d)) t a t' := by
  induction p generalizing t with
  | done b =>
    cases h
    refine ⟨ht, .empty, (Table.modifyHead_empty _).symm, fun _ => ⟨0, rfl⟩, ?_⟩
    intro d c reads hc
    obtain ⟨rfl, rfl⟩ := Plan.run_done_some.1 hc
    exact ⟨rfl, rfl, rfl⟩
  | ask q next ih =>
    obtain ⟨b, t₁, hq, hn⟩ := run_ask_some.1 h
    obtain ⟨hPq, hnext⟩ := hw
    have hout := hr hPq ht hu.ask.1 hq
    have hb := hout.right
    obtain ⟨ht₁, f, hf, hfd, hfp⟩ := hout
    obtain ⟨ht', g, hg, hgd, hgp⟩ := ih b (hnext b hb) ht₁ (hu.ask.2 b hb) hn
    refine ⟨ht', f.absorb g, ?_, fun hc => ?_, fun d c reads hc => ?_⟩
    · rw [hg, hf, Table.modifyHead_absorb]
    · obtain ⟨hfc, hgc⟩ : f.cyclic = false ∧ g.cyclic = false := by
        simpa only [Frame.absorb_cyclic, Bool.or_eq_false_iff] using hc
      obtain ⟨d₁, hd₁⟩ := hfd hfc
      obtain ⟨d₂, hd₂⟩ := hgd hgc
      exact ⟨max d₁ d₂, Plan.run_ask_some.2 ⟨b, f.reads, g.reads,
        plain_mono (Nat.le_max_left ..) hd₁, run_plain_mono (Nat.le_max_right ..) hd₂, rfl⟩⟩
    · obtain ⟨b', r, s, hq', hn', rfl⟩ := Plan.run_ask_some.1 hc
      obtain ⟨rfl, rfl, hfc⟩ := hfp d b' r hq'
      obtain ⟨rfl, rfl, hgc⟩ := hgp d c s hn'
      exact ⟨rfl, rfl, by rw [Frame.absorb_cyclic, hfc, hgc]; rfl⟩

/-! ## Methods -/

/-- A method and its answers without a memory, as they are for some question of `P`. -/
structure Answers (o : Precedence) (e : Engine) (P K : Query → Prop) (m : Method α)
    (plain : Nat → Reading α) : Prop where
  counted : ∀ {q}, P q → K q
  zero : plain 0 = none
  succ : ∀ d, plain (d + 1) = m.read (e.plain o d)
  within : m.Within P (e.Right o)
  keyed : ∀ {k q}, m.key? = some k → K q → (e.method q).key? = some k →
    ∀ d, m.filed (e.plain o d) = (e.method q).filed (e.plain o d)
  self : ∃ q, P q ∧ (e.method q).key? = m.key? ∧ ∀ d, (plain d).isSome → (e.plain o d q).isSome

theorem Domain.answers (hD : e.Domain o P K) {q : Query} (hP : P q)
    (hq : e.placed o q = e.method q) : e.Answers o P K (e.method q) fun d => e.plain o d q where
  counted := hD.counted
  zero := rfl
  succ d := by
    change (e.placed o q).read _ = _
    rw [hq]
  within := hD.closed hP
  keyed hk hP' hk' := hD.keyed hP hP' hk hk'
  self := ⟨q, hP, rfl, fun _ h => h⟩

/-- A remembered question that has an answer has one that is filed, one level further down. -/
theorem Domain.isSome_filed (hD : e.Domain o P K) {q : Query} {k : Key} (hP : P q)
    (hk : (e.method q).key? = some k) {r : Nat} (h : (e.plain o r q).isSome) :
    ∃ s, r = s + 1 ∧ ((e.method q).filed (e.plain o s)).isSome := by
  cases r with
  | zero => cases h
  | succ s =>
    refine ⟨s, rfl, ?_⟩
    rcases hD.placed hP with hq | ⟨a, reads, d, hq, -⟩
    · rw [Method.isSome_filed hk, ← hq]
      exact h
    · rw [hq] at hk
      cases hk

namespace Answers

variable {m : Method α} {plain : Nat → Reading α} {working : List Key} {k : Key}

theorem isSome_succ (hm : e.Answers o P K m plain) (hk : m.key? = some k) {d : Nat} :
    (plain (d + 1)).isSome ↔ (m.filed (e.plain o d)).isSome := by
  rw [hm.succ, Method.isSome_filed hk]

/-- The answer that a sound table has is the one to be filed. -/
theorem of_sound (hm : e.Answers o P K m plain) (hk : m.key? = some k) {t : Table}
    (ht : e.Sound o K t) {en : Entry} (he : t.entries[k]? = some en) :
    ∃ d, m.filed (e.plain o d) = some (k, en) := by
  obtain ⟨q, hP, hkey, -⟩ := hm.self
  obtain ⟨d, hd⟩ := ht k en he q (hm.counted hP) (hkey.trans hk)
  exact ⟨d, (hm.keyed hk (hm.counted hP) (hkey.trans hk) d).trans hd⟩

/-- What comes back to itself has no answer. -/
theorem not_isSome (hm : e.Answers o P K m plain) (hk : m.key? = some k) (hw : k ∈ working)
    (hu : e.Under o P working fun d => (plain d).isSome) (d : Nat) : ¬(plain d).isSome := by
  intro hd
  obtain ⟨q, hP, hkey, hself⟩ := hm.self
  rcases hu with ⟨d', hd', ha⟩ | hend
  · exact Nat.lt_irrefl _ (ha k hw q hP (hkey.trans hk) d' (hself d' hd'))
  · exact hend k hw q hP (hkey.trans hk) d (hself d hd)

/-- While a question is in progress, the questions asked for it lie below it. The depth to be put
down for it is the least one at which it has an answer. -/
theorem under_cons (hm : e.Answers o P K m plain) (hD : e.Domain o P K) (hk : m.key? = some k)
    (hu : e.Under o P working fun d => (plain d).isSome) :
    e.Under o P (k :: working) fun d => (m.filed (e.plain o d)).isSome := by
  have hself {q : Query} {r : Nat} (hP : P q) (hq : (e.method q).key? = some k)
      (hr : (e.plain o r q).isSome) : (plain r).isSome := by
    obtain ⟨s, rfl, hs⟩ := hD.isSome_filed hP hq hr
    rw [hm.isSome_succ hk, hm.keyed hk (hm.counted hP) hq]
    exact hs
  by_cases hc : ∃ d, (plain d).isSome
  · -- the least depth at which there is an answer
    obtain ⟨d, hd, hmin⟩ : ∃ d, (plain d).isSome ∧ ∀ r, (plain r).isSome → d ≤ r :=
      ⟨Nat.find hc, Nat.find_spec hc, fun r hr => Nat.find_min' hc hr⟩
    obtain ⟨s, rfl⟩ : ∃ s, d = s + 1 := by
      cases d with
      | zero =>
        rw [hm.zero] at hd
        cases hd
      | succ s => exact ⟨s, rfl⟩
    refine .inl ⟨s, (hm.isSome_succ hk).1 hd, fun k' hk' q hP hq r hr => ?_⟩
    rcases List.mem_cons.1 hk' with rfl | hk'
    · exact hmin r (hself hP hq hr)
    rcases hu with ⟨d', hd', ha⟩ | hend
    · exact Nat.lt_of_lt_of_le (hmin d' hd') (Nat.le_of_lt (ha k' hk' q hP hq r hr))
    · exact absurd hr (hend k' hk' q hP hq r)
  · rcases hu with ⟨d, hd, -⟩ | hend
    · exact absurd ⟨d, hd⟩ hc
    refine .inr fun k' hk' q hP hq r hr => ?_
    rcases List.mem_cons.1 hk' with rfl | hk'
    · exact hc ⟨r, hself hP hq hr⟩
    · exact hend k' hk' q hP hq r hr

end Answers

/-! ## Runs on sound tables -/

variable {working : List Key} {t t' : Table} {depth : Nat}

theorem Sound.mono {K' : Query → Prop} (h : e.Sound o K t) (hK : ∀ q, K' q → K q) :
    e.Sound o K' t :=
  fun k en hen q hq => h k en hen q (hK q hq)

theorem Sound.of_entries {t t' : Table} (h : e.Sound o K t) (he : t'.entries = t.entries) :
    e.Sound o K t' := by
  unfold Sound
  rw [he]
  exact h

theorem Sound.of_empty (h : t.entries = ∅) : e.Sound o K t := by
  intro k en hen
  simp [h] at hen

theorem Sound.readAll (h : e.Sound o K t) (nodes : NodeSet) : e.Sound o K (t.readAll nodes) :=
  h.of_entries (Table.Passes.readAll t nodes).entries

namespace Answers

variable {m : Method α} {plain : Nat → Reading α} {β : Type} {early : Bool} {slot : Slot β}
  {p : Plan β} {view : β → α}

/-- A remembered answer is brought up from the table. -/
theorem hit (hm : e.Answers o P K (.remembered early slot p view) plain) (ht : e.Sound o K t)
    {work : List Key → Work β} {en : Entry} (hen : t.entries[slot.key]? = some en) :
    ∃ a, remember slot.key slot.onCycle slot.wrap slot.unwrap working work t =
        some (a, (t.lookup slot.key).2) ∧ ∃ d, plain d = some (view a, en.reads) := by
  obtain ⟨d, hd⟩ := hm.of_sound rfl ht hen
  obtain ⟨a, reads, hp, hr⟩ := Reading.andThen_some.1 hd
  obtain ⟨-, rfl⟩ := Prod.mk.inj hr
  refine ⟨a, remember_hit hen (slot.unwrap_wrap a), d + 1, ?_⟩
  rw [hm.succ]
  exact Reading.andThen_some.2 ⟨a, reads, hp, rfl⟩

/-- A new answer is filed as it is without a memory. -/
theorem sound_finish (hm : e.Answers o P K (.remembered early slot p view) plain)
    (ht : e.Sound o K t) {f : Frame} {fs : List Frame} {a : β}
    (hf : t.frames = (Frame.reading {slot.key.node}).absorb f :: fs)
    (hp : f.cyclic = false → ∃ d, p.run (e.plain o d) = some (a, f.reads)) :
    e.Sound o K (t.finish slot.key (slot.wrap a)) := by
  intro k en hen q hP hk
  rw [Table.finish_entries hf] at hen
  cases hc : f.cyclic with
  | true =>
    rw [if_pos (by simp [hc])] at hen
    exact ht k en hen q hP hk
  | false =>
    rw [if_neg (by simp [hc, Frame.reading]), Tables.getElem?_insert] at hen
    split at hen
    · subst k
      cases hen
      obtain ⟨d, hd⟩ := hp hc
      refine ⟨d, (hm.keyed rfl hP hk d).symm.trans ?_⟩
      exact Reading.andThen_some.2 ⟨a, f.reads, hd, rfl⟩
    · exact ht k en hen q hP hk

theorem unique (hm : e.Answers o P K m plain) {d d' : Nat} {x y : α × NodeSet}
    (hx : plain d = some x) (hy : plain d' = some y) : x = y := by
  obtain ⟨k, rfl⟩ : ∃ k, d = k + 1 := by
    cases d with
    | zero => rw [hm.zero] at hx; cases hx
    | succ k => exact ⟨k, rfl⟩
  obtain ⟨k', rfl⟩ : ∃ k, d' = k + 1 := by
    cases d' with
    | zero => rw [hm.zero] at hy; cases hy
    | succ k => exact ⟨k, rfl⟩
  rw [hm.succ] at hx hy
  have hx := Method.read_mono (fun _ _ => plain_mono (Nat.le_max_left k k')) hx
  have hy := Method.read_mono (fun _ _ => plain_mono (Nat.le_max_right k k')) hy
  exact Option.some.inj (hx.symm.trans hy)

/-- It is enough to know the outcome one question down. -/
theorem outcome_of_read (hm : e.Answers o P K m plain) {a : α}
    (h : e.Outcome o K (fun d => m.read (e.plain o d)) t a t') : e.Outcome o K plain t a t' := by
  obtain ⟨ht, f, hf, hd, hp⟩ := h
  refine ⟨ht, f, hf, fun hc => ?_, fun d b reads hb => ?_⟩
  · obtain ⟨d, h⟩ := hd hc
    exact ⟨d + 1, (hm.succ d).trans h⟩
  · cases d with
    | zero =>
      rw [hm.zero] at hb
      cases hb
    | succ d => exact hp d b reads ((hm.succ d).symm.trans hb)

theorem under_read (hm : e.Answers o P K m plain)
    (hu : e.Under o P working fun d => (plain d).isSome) :
    e.Under o P working fun d => (m.read (e.plain o d)).isSome := by
  refine hu.mono fun d hd => ?_
  cases d with
  | zero =>
    rw [hm.zero] at hd
    cases hd
  | succ d => exact ⟨d, Nat.le_succ d, hm.succ d ▸ hd⟩

theorem outcome_framed {γ : Type} {p : Plan γ} {plain : Nat → Reading (γ × NodeSet)}
    (hm : e.Answers o P K (.framed p) plain) (hr : e.Runs o P K depth) (ht : e.Sound o K t)
    (hu : e.Under o P working fun d => (plain d).isSome) {a : γ × NodeSet}
    (h : (Method.framed p).work (e.answer depth) working t = some (a, t')) :
    e.Outcome o K plain t a t' := by
  obtain ⟨⟨b, t₁⟩, hp, h⟩ := Option.bind_eq_some_iff.1 h
  cases h
  have hu' : e.Under o P working fun d => (p.run (e.plain o d)).isSome := by
    refine (hm.under_read hu).mono fun d hd => ⟨d, Nat.le_refl d, ?_⟩
    obtain ⟨x, hx⟩ := Option.isSome_iff_exists.1 hd
    obtain ⟨b, r, hb, -⟩ := Reading.andThen_some.1 hx
    exact Option.isSome_iff_exists.2 ⟨_, hb⟩
  obtain ⟨ht₁, f, hf, hfd, hfp⟩ := hr.plan hm.within (t := t.enter) ht hu' hp
  rw [show t.enter.frames = .empty :: t.frames from rfl, List.modifyHead_cons,
    Frame.empty_absorb] at hf
  obtain ⟨rfl, hfs, he⟩ := Table.leave_frames hf
  refine hm.outcome_of_read ⟨ht₁.of_entries he, _, hfs, fun hc => ?_, fun d c reads hc => ?_⟩
  · obtain ⟨d, hd⟩ := hfd hc
    exact ⟨d, Reading.andThen_some.2 ⟨b, _, hd, rfl⟩⟩
  · obtain ⟨b', r, hb', hc⟩ := Reading.andThen_some.1 hc
    obtain ⟨rfl, rfl, hcyc⟩ := hfp d b' r hb'
    cases hc
    exact ⟨rfl, rfl, hcyc⟩

theorem outcome_remembered (hm : e.Answers o P K (.remembered early slot p view) plain)
    (hD : e.Domain o P K) (hr : e.Runs o P K depth) (ht : e.Sound o K t)
    (hu : e.Under o P working fun d => (plain d).isSome) {a : α}
    (h : (Method.remembered early slot p view).work (e.answer depth) working t = some (a, t')) :
    e.Outcome o K plain t a t' := by
  obtain ⟨b, hb, rfl⟩ := map_some.1 h
  have hpass := Table.Passes.readAll t (slot.early early)
  have ht₀ := ht.readAll (slot.early early)
  generalize t.readAll (slot.early early) = t₀ at hb hpass ht₀
  cases hen : t₀.entries[slot.key]? with
  | some en =>
    obtain ⟨b', hb', d, hd⟩ := hm.hit ht₀ hen
    obtain ⟨-, hlook⟩ := Table.Passes.lookup_hit hen
    cases hb.symm.trans hb'
    have hreads : slot.early early ∪ en.reads = en.reads := by
      obtain ⟨d, hd⟩ := hm.of_sound rfl ht₀ hen
      obtain ⟨_, r, -, hr⟩ := Reading.andThen_some.1 hd
      obtain ⟨-, rfl⟩ := Prod.mk.inj hr
      exact Slot.early_union slot early r
    refine ⟨ht₀.of_entries hlook.entries, .reading en.reads, ?_, fun _ => ⟨d, hd⟩, ?_⟩
    · rw [hlook.frames, hpass.frames, Table.modifyHead_absorb]
      simp only [Frame.absorb, Frame.reading, hreads, Bool.or_false]
    · intro d' c reads hc
      cases hm.unique hc hd
      exact ⟨rfl, rfl, rfl⟩
  | none =>
    obtain ⟨-, hlook⟩ := Table.Passes.lookup_miss hen
    have ht₁ := ht₀.of_entries hlook.entries
    by_cases hw : slot.key ∈ working
    · rw [remember_cycle hen hw] at hb
      cases hb
      have hcut := Table.Passes.markCyclic (t₀.lookup slot.key).2
      refine ⟨ht₁.of_entries hcut.entries, (Frame.reading (slot.early early)).absorb .cut, ?_,
        fun hc => (by cases hc), fun d c reads hc => ?_⟩
      · rw [hcut.frames, hlook.frames, hpass.frames, Table.modifyHead_empty,
          Table.modifyHead_absorb]
      · exact absurd (Option.isSome_iff_exists.2 ⟨_, hc⟩) (hm.not_isSome rfl hw hu d)
    · obtain ⟨t₂, hp, rfl⟩ := (remember_miss hen hw).1 hb
      have hu' : e.Under o P (slot.key :: working) fun d => (p.run (e.plain o d)).isSome := by
        refine (hm.under_cons hD rfl hu).mono fun d hd => ⟨d, Nat.le_refl d, ?_⟩
        obtain ⟨x, hx⟩ := Option.isSome_iff_exists.1 hd
        obtain ⟨b, r, hb, -⟩ := Reading.andThen_some.1 hx
        exact Option.isSome_iff_exists.2 ⟨_, hb⟩
      obtain ⟨ht₂, f, hf, hfd, hfp⟩ := hr.plan hm.within
        (t := (t₀.lookup slot.key).2.enter.read slot.key.node)
        (ht₁.of_entries (Table.enter_read_entries ..)) hu' hp
      rw [Table.enter_read_frames, List.modifyHead_cons] at hf
      refine hm.outcome_of_read ⟨hm.sound_finish ht₂ hf hfd,
        (Frame.reading {slot.key.node}).absorb f, ?_, fun hc => ?_, fun d c reads hc => ?_⟩
      · rw [Table.finish_frames hf, hlook.frames, hpass.frames, Table.modifyHead_empty,
          Table.modifyHead_absorb]
        simp only [Frame.absorb, Frame.reading, Slot.early_union, Bool.false_or]
      · obtain ⟨d, hd⟩ := hfd (by simpa [Frame.reading] using hc)
        exact ⟨d, Reading.andThen_some.2 ⟨b, f.reads, hd, rfl⟩⟩
      · obtain ⟨b', r, hb', hc⟩ := Reading.andThen_some.1 hc
        obtain ⟨rfl, rfl, hcyc⟩ := hfp d b' r hb'
        cases hc
        exact ⟨rfl, rfl, by simpa [Frame.reading] using hcyc⟩

theorem outcome (hm : e.Answers o P K m plain) (hD : e.Domain o P K) (hr : e.Runs o P K depth)
    (ht : e.Sound o K t) (hu : e.Under o P working fun d => (plain d).isSome) {a : α}
    (h : m.work (e.answer depth) working t = some (a, t')) : e.Outcome o K plain t a t' := by
  cases m with
  | known b reads =>
    cases h
    have hp := Table.Passes.readAll t reads
    refine ⟨ht.readAll reads, .reading reads, hp.frames, fun _ => ⟨1, hm.succ 0⟩, ?_⟩
    intro d c r hc
    cases hm.unique hc (hm.succ 0)
    exact ⟨rfl, rfl, rfl⟩
  | plan p => exact hm.outcome_of_read (hr.plan hm.within ht (hm.under_read hu) h)
  | framed p => exact hm.outcome_framed hr ht hu h
  | remembered early slot p view => exact hm.outcome_remembered hD hr ht hu h

end Answers

/-- Every run on a sound table, however deep, does what a run should do. By induction on the depth;
a question that counts goes by `Answers.outcome`, and a bound element by the depth that it is found
at. -/
theorem Domain.runs (hD : e.Domain o P K) (depth : Nat) : e.Runs o P K depth := by
  induction depth with
  | zero =>
    intro q working t t' a hP ht hu h
    cases h
  | succ depth ih =>
    intro q working t t' a hP ht hu h
    rw [answer_succ] at h
    rcases hD.placed hP with hq | ⟨b, reads, d, hq, hd⟩
    · exact (hD.answers hP hq).outcome hD ih ht hu h
    · rw [hq] at h
      cases h
      have hp := Table.Passes.readAll t reads
      refine ⟨ht.readAll reads, .reading reads, hp.frames, fun _ => ⟨d, hd⟩, ?_⟩
      intro d' c r hc
      cases plain_unique hc hd
      exact ⟨rfl, rfl, rfl⟩

end Engine

end Dataflow
