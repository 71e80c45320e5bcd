import Dataflow.Proofs.Engine.Types

/-! What is relied on when questions are answered.

A contract says which questions come up while some keys are being worked out (`Contract.asks`), what
the answers to them are like (`Contract.good`), and what is remembered under a key
(`Contract.filed`). If every method keeps to it (`Engine.Keeps`), with whatever is remembered and
with the placeholders that cut a cycle short, then so does every answer, at any depth and from any
table that holds nothing else (`Keeps.answer`). And if the questions that a method asks are of a
lower rank than its own (`Engine.Descends`), then there is an answer at any depth above the rank
(`Descends.answer`). -/

namespace Dataflow

open Memo (Table Key)

structure Contract where
  asks : List Key → Query → Prop
  good : (q : Query) → q.Answer → Prop
  filed : Key → Memo.Answer → Prop

namespace Contract

/-- The questions that are of a lower rank than `n`. -/
def below (C : Contract) (rank : List Key → Query → Nat) (n : Nat) : Contract :=
  { C with asks := fun working q => C.asks working q ∧ rank working q < n }

end Contract

variable {α β : Type} {C : Contract} {working : List Key} {Q : α → Prop} {t : Table}

/-- What is asked for and shown under a slot: what is remembered there, the placeholder, or what is
worked out and then remembered. -/
structure Slot.Obeys (C : Contract) (working : List Key) (slot : Slot α) (p : Plan α)
    (Q : α → Prop) : Prop where
  hit : ∀ {a b}, C.filed slot.key a → slot.unwrap a = some b → Q b
  cycle : slot.key ∈ working → Q slot.onCycle
  work : slot.key ∉ working →
    p.Ends (C.asks (slot.key :: working)) C.good fun b => Q b ∧ C.filed slot.key (slot.wrap b)

/-- A slot of which nothing is told. -/
theorem Slot.Obeys.of_within {slot : Slot α} {p : Plan α} (hf : ∀ a, C.filed slot.key a)
    (hp : slot.key ∉ working → p.Within (C.asks (slot.key :: working)) C.good) :
    slot.Obeys C working p fun _ => True where
  hit _ _ := trivial
  cycle _ := trivial
  work hk := Plan.Ends.mono (hp hk) fun _ _ => ⟨trivial, hf _⟩

/-- The method asks what the contract allows, and ends with an answer of `Q`. -/
def Method.Obeys (C : Contract) (working : List Key) :
    {α : Type} → Method α → (α → Prop) → Prop
  | _, known a _, Q => Q a
  | _, plan p, Q => p.Ends (C.asks working) C.good Q
  | _, framed p, Q => p.Ends (C.asks working) C.good fun b => ∀ reads, Q (b, reads)
  | _, remembered _ slot p view, Q => slot.Obeys C working p fun b => Q (view b)

/-- Where a method may ask for less it may ask for more. -/
theorem Method.Obeys.weaken {asks : List Key → Query → Prop} {m : Method α}
    (h : m.Obeys C working Q) (ha : ∀ {working q}, C.asks working q → asks working q) :
    m.Obeys { C with asks } working Q := by
  cases m with
  | known a reads => exact h
  | plan p => exact Plan.Ends.weaken h fun _ => ha
  | framed p => exact Plan.Ends.weaken h fun _ => ha
  | remembered early slot p view => exact ⟨h.hit, h.cycle, fun hk => (h.work hk).weaken fun _ => ha⟩

namespace Contract

/-- What comes of a piece of work: if it ends, as it does if `must` holds, it ends well, and what is
filed then is what may be filed. -/
structure Meets (C : Contract) (must : Prop) (Q : α → Prop) (r : Option (α × Table)) : Prop where
  ends : must → r.isSome
  good : ∀ {a t'}, r = some (a, t') → Q a ∧ t'.Holds C.filed

namespace Meets

variable {must : Prop} {R : β → Prop}

theorem done {a : α} (ha : Q a) (ht : t.Holds C.filed) : C.Meets must Q (some (a, t)) where
  ends _ := rfl
  good h := by
    cases h
    exact ⟨ha, ht⟩

theorem bind {r : Option (α × Table)} {f : α → Engine.Work β} (h : C.Meets must Q r)
    (hf : ∀ {a t}, Q a → t.Holds C.filed → C.Meets must R (f a t)) :
    C.Meets must R (r.bind fun at₁ => f at₁.1 at₁.2) := by
  cases r with
  | none => exact ⟨fun hm => absurd (h.ends hm) Bool.false_ne_true, fun hr => nomatch hr⟩
  | some at₁ =>
    obtain ⟨ha, ht⟩ := h.good (rfl : some at₁ = some (at₁.1, at₁.2))
    exact hf ha ht

end Meets

variable {must : Prop} {f : (q : Query) → Engine.Work q.Answer}

theorem run_meets {P : Query → Prop}
    (hf : ∀ {q t}, P q → t.Holds C.filed → C.Meets must (C.good q) (f q t)) {p : Plan α}
    (hp : p.Ends P C.good Q) (ht : t.Holds C.filed) : C.Meets must Q (p.run f t) := by
  induction p generalizing t with
  | done a => exact .done hp ht
  | ask q next ih => exact (hf hp.1 ht).bind fun ha ht => ih _ (hp.2 _ ha) ht

theorem remember_meets {f : List Key → (q : Query) → Engine.Work q.Answer}
    (hf : ∀ {ks q t}, C.asks ks q → t.Holds C.filed → C.Meets must (C.good q) (f ks q t))
    {slot : Slot α} {p : Plan α} (h : slot.Obeys C working p Q) (ht : t.Holds C.filed) :
    C.Meets must Q (Engine.remember slot.key slot.onCycle slot.wrap slot.unwrap working
      (fun working => p.run (f working)) t) := by
  obtain ⟨fr, hpass⟩ := Table.Passes.lookup t slot.key
  have ht' := ht.of_entries hpass.entries
  unfold Engine.remember
  dsimp only
  split
  next b hb =>
    obtain ⟨a, ha, hu⟩ := Option.bind_eq_some_iff.1 hb
    exact .done (h.hit (ht.lookup ha) hu) ht'
  next =>
    split
    next hw => exact .done (h.cycle hw) (ht'.of_entries (Table.Passes.markCyclic _).entries)
    next hw =>
      refine (run_meets hf (h.work hw) ?_).bind fun hb ht => .done hb.1 (ht.finish hb.2)
      exact ht'.of_entries (Table.enter_read_entries ..)

theorem work_meets {f : List Key → (q : Query) → Engine.Work q.Answer}
    (hf : ∀ {ks q t}, C.asks ks q → t.Holds C.filed → C.Meets must (C.good q) (f ks q t))
    {m : Method α} (h : m.Obeys C working Q) (ht : t.Holds C.filed) :
    C.Meets must Q (m.work f working t) := by
  cases m with
  | known a reads => exact .done h (ht.readAll reads)
  | plan p => exact run_meets hf h ht
  | framed p =>
    exact (run_meets hf h ht.enter).bind (f := fun b t => some ((b, t.leave.1.reads), t.leave.2))
      fun hb ht => .done (hb _) ht.leave
  | remembered early slot p view =>
    exact (remember_meets hf h (ht.readAll _)).bind fun hb ht => .done hb ht

end Contract

namespace Engine

variable {e : Engine} {d : Nat} {q : Query}

/-- All methods keep to the contract. -/
def Keeps (e : Engine) (C : Contract) : Prop :=
  ∀ working q, C.asks working q → (e.method q).Obeys C working (C.good q)

/-- All methods keep to the contract, and ask only for what is of a lower rank. -/
def Descends (e : Engine) (C : Contract) (rank : List Key → Query → Nat) : Prop :=
  ∀ working q, C.asks working q →
    (e.method q).Obeys (C.below rank (rank working q)) working (C.good q)

theorem Keeps.answer (h : e.Keeps C) (hq : C.asks working q) (ht : t.Holds C.filed) :
    C.Meets False (C.good q) (e.answer d working q t) := by
  induction d generalizing working q t with
  | zero => exact ⟨False.elim, fun h => nomatch h⟩
  | succ d ih =>
    rw [answer_succ]
    exact Contract.work_meets ih (h _ _ hq) ht

/-- What is of a lower rank than the depth is answered, by induction on the depth: what comes up for
it is of a lower rank still. -/
theorem Descends.answer {rank : List Key → Query → Nat} (h : e.Descends C rank)
    (hq : C.asks working q) (hd : rank working q < d) (ht : t.Holds C.filed) :
    C.Meets True (C.good q) (e.answer d working q t) := by
  induction d generalizing working q t with
  | zero => exact absurd hd (Nat.not_lt_zero _)
  | succ d ih =>
    rw [answer_succ]
    have hm : (C.below rank (rank working q)).Meets True (C.good q)
        ((e.method q).work (e.answer d) working t) := by
      refine Contract.work_meets (fun hq' ht => ?_) (h _ _ hq) ht
      have hm := ih hq'.1 (by have := hq'.2; omega) ht
      exact ⟨hm.ends, hm.good⟩
    exact ⟨hm.ends, hm.good⟩

/-- An answer is like that also if there is none, provided that `Query.silence` is. -/
theorem Keeps.ask (h : e.Keeps C) (hq : C.asks [] q) (hs : C.good q q.silence)
    (ht : t.Holds C.filed) : C.good q (e.ask q t).1 := by
  rcases ask_cases e q t with ⟨k, hk⟩ | ⟨-, hk⟩
  · exact ((h.answer hq ht).good hk).1
  · rw [hk]
    exact hs

theorem Descends.perform {rank : List Key → Query → Nat} (h : e.Descends C rank) {p : Plan α}
    (hp : p.Ends (C.asks []) C.good Q) (ht : t.Holds C.filed) :
    Q (e.perform p t).1 ∧ (e.perform p t).2.Holds C.filed := by
  induction p generalizing t with
  | done a => exact ⟨hp, ht⟩
  | ask q next ih =>
    have hm := h.answer (d := rank [] q + 1) hp.1 (Nat.lt_succ_self _) ht
    obtain ⟨r, hr⟩ := Option.isSome_iff_exists.1 (hm.ends trivial)
    obtain ⟨ha, ht⟩ := hm.good hr
    have hnext : e.perform (.ask q next) t = e.perform (next r.1) r.2 := by
      change e.perform (next (e.ask q t).1) (e.ask q t).2 = _
      rw [ask_eq hr]
    rw [hnext]
    exact ih _ (hp.2 _ ha) ht

/-! ## Connections -/

/-- No connections are being looked up. This is so whenever a plan asks: they are found without
asking anything else. -/
def Calm (working : List Key) : Prop := ∀ k ∈ working, k.topic ≠ .connections

theorem Calm.nil : Calm [] := fun _ h => nomatch h

theorem Calm.cons (h : Calm working) {k : Key} (hk : k.topic ≠ .connections) :
    Calm (k :: working) :=
  List.forall_mem_cons.2 ⟨hk, h⟩

/-- What is remembered of the connections at a key are those of the graph. -/
def FilesConnections (e : Engine) (k : Key) (a : Memo.Answer) : Prop :=
  k.topic = .connections → ∀ cs, a.connections? = some cs → ∀ key,
    (k.word = "into:" ++ key → cs = e.graph.connectionsInto k.node key) ∧
      (k.word = "from:" ++ key → cs = e.graph.connectionsFrom k.node key)

theorem filesConnections_of_ne {k : Key} (hk : k.topic ≠ .connections) (a : Memo.Answer) :
    e.FilesConnections k a :=
  fun h => absurd h hk

section Connections

variable (hfiled : ∀ {k a}, k.topic = .connections → (C.filed k a ↔ e.FilesConnections k a))
  (hw : Calm working) (id : NodeId) (key : String)

include hfiled hw

theorem connectionsInto_obeys : (e.method (.connectionsInto id key)).Obeys C working
    (· = e.graph.connectionsInto id key) where
  hit ha hcs := (((hfiled rfl).1 ha rfl _ hcs key).1 rfl)
  cycle hk := absurd rfl (hw _ hk)
  work _ := by
    refine .pure ⟨rfl, (hfiled rfl).2 ?_⟩
    rintro - _ ⟨⟩ key'
    exact ⟨fun h => by rw [(String.append_right_inj _).1 h]; rfl,
      fun h => absurd h (into_ne_from _ _)⟩

theorem connectionsFrom_obeys : (e.method (.connectionsFrom id key)).Obeys C working
    (· = e.graph.connectionsFrom id key) where
  hit ha hcs := (((hfiled rfl).1 ha rfl _ hcs key).2 rfl)
  cycle hk := absurd rfl (hw _ hk)
  work _ := by
    refine .pure ⟨rfl, (hfiled rfl).2 ?_⟩
    rintro - _ ⟨⟩ key'
    exact ⟨fun h => absurd h.symm (into_ne_from _ _),
      fun h => by rw [(String.append_right_inj _).1 h]; rfl⟩

end Connections

end Engine

end Dataflow
