import Dataflow.Proofs.Engine.Method
import Dataflow.Proofs.Graph.WellFormed
import Dataflow.Proofs.Scope

/-! Answers without a memory (`Engine.plain`).

Nothing is remembered here and nothing is taken to be in progress: every question is worked out anew
as deep as it goes. A bound iterator stands at its place among the elements that it has where only
those before it are bound, in an order that is given once for all (`Precedence`). With each answer
come the nodes that are read for it, and in a graph that has not changed there the answer is the
same (`plain_congr`). -/

namespace Dataflow

open Memo (Key Entry)

/-- An answer with the nodes that are read for it, or none if that goes too deep. -/
def Reading (α : Type) : Type := Option (α × NodeSet)

namespace Reading

variable {α β : Type}

def pure (a : α) : Reading α := some (a, ∅)

def bind (x : Reading α) (f : α → Reading β) : Reading β :=
  match x with
  | none => none
  | some (a, reads) =>
    match f a with
    | none => none
    | some (b, reads') => some (b, reads ∪ reads')

instance : Monad Reading where
  pure := pure
  bind := bind

/-- What becomes of an answer and its reads. -/
def andThen (x : Reading α) (f : α → NodeSet → β) : Option β :=
  match x with
  | none => none
  | some (a, reads) => some (f a reads)

theorem andThen_some {x : Reading α} {f : α → NodeSet → β} {b : β} :
    x.andThen f = some b ↔ ∃ a reads, x = some (a, reads) ∧ b = f a reads := by
  unfold andThen
  cases x with
  | none => simp
  | some ar => simp only [Option.some.injEq]; grind

theorem isSome_andThen {x : Reading α} {f : α → NodeSet → β} :
    (x.andThen f).isSome = x.isSome := by
  cases x <;> rfl

theorem bind_some {x : Reading α} {f : α → Reading β} {b : β} {reads : NodeSet} :
    (x >>= f) = some (b, reads) ↔
      ∃ a r s, x = some (a, r) ∧ f a = some (b, s) ∧ reads = r ∪ s := by
  change bind x f = _ ↔ _
  unfold bind
  cases x with
  | none => simp
  | some ar =>
    obtain ⟨a, r⟩ := ar
    cases hf : f a with
    | none => simp only [hf, reduceCtorEq, false_iff]; grind
    | some bs => simp only [hf]; grind

theorem pure_some {a b : α} {reads : NodeSet} :
    (Pure.pure a : Reading α) = some (b, reads) ↔ b = a ∧ reads = ∅ := by
  change some (a, ∅) = some (b, reads) ↔ _
  simp only [Option.some.injEq, Prod.mk.injEq, @eq_comm _ a, @eq_comm _ ∅]

theorem eq_of_some {x y : Reading α} (h : ∀ a reads, x = some (a, reads) ↔ y = some (a, reads)) :
    x = y := by
  apply Option.ext
  rintro ⟨a, reads⟩
  exact h a reads

instance : LawfulMonad Reading := .mk' Reading
  (fun x => eq_of_some fun a reads => by
    change bind x pure = _ ↔ _
    rw [show bind x pure = (x >>= Pure.pure) from rfl, bind_some]
    simp only [pure_some]
    grind [Tables.union_empty])
  (fun a f => eq_of_some fun b reads => by
    rw [bind_some]
    simp only [pure_some]
    grind [Tables.empty_union])
  (fun x f g => eq_of_some fun c reads => by
    simp only [bind_some]
    grind [Tables.union_assoc])

end Reading

namespace Plan

variable {α : Type} {f g : (q : Query) → Reading q.Answer}

theorem run_ask_some {q : Query} {next : q.Answer → Plan α} {b : α} {reads : NodeSet} :
    (ask q next).run f = some (b, reads) ↔
      ∃ a r s, f q = some (a, r) ∧ (next a).run f = some (b, s) ∧ reads = r ∪ s :=
  Reading.bind_some

theorem run_done_some {a b : α} {reads : NodeSet} :
    (done a).run f = some (b, reads) ↔ b = a ∧ reads = ∅ :=
  Reading.pure_some

/-- With more answers a plan comes to the same end. -/
theorem run_mono (h : ∀ q x, f q = some x → g q = some x) {p : Plan α} {x : α × NodeSet}
    (hp : p.run f = some x) : p.run g = some x := by
  induction p generalizing x with
  | done a => exact hp
  | ask q next ih =>
    obtain ⟨a, r, s, hq, hn, hx⟩ := run_ask_some.1 hp
    exact run_ask_some.2 ⟨a, r, s, h q _ hq, ih a hn, hx⟩

end Plan

namespace Method

variable {α : Type} {f g : (q : Query) → Reading q.Answer}

/-- What the method gives without a memory. -/
def read (f : (q : Query) → Reading q.Answer) : {α : Type} → Method α → Reading α
  | _, known a reads => some (a, reads)
  | _, plan p => p.run f
  | _, framed p => (p.run f).andThen fun b reads => ((b, reads), reads)
  | _, remembered _ slot p view =>
    (p.run f).andThen fun a reads => (view a, {slot.key.node} ∪ reads)

/-- What is remembered of it. -/
def filed (f : (q : Query) → Reading q.Answer) : {α : Type} → Method α → Option (Key × Entry)
  | _, remembered _ slot p _ =>
    (p.run f).andThen fun a reads => (slot.key, ⟨slot.wrap a, {slot.key.node} ∪ reads⟩)
  | _, _ => none

theorem read_mono (h : ∀ q x, f q = some x → g q = some x) {m : Method α} {x : α × NodeSet}
    (hm : m.read f = some x) : m.read g = some x := by
  cases m with
  | known a reads => exact hm
  | plan p => exact Plan.run_mono h hm
  | framed p =>
    obtain ⟨b, r, hp, rfl⟩ := Reading.andThen_some.1 hm
    exact Reading.andThen_some.2 ⟨b, r, Plan.run_mono h hp, rfl⟩
  | remembered early slot p view =>
    obtain ⟨b, r, hp, rfl⟩ := Reading.andThen_some.1 hm
    exact Reading.andThen_some.2 ⟨b, r, Plan.run_mono h hp, rfl⟩

theorem isSome_filed {m : Method α} {k : Key} (hk : m.key? = some k) :
    (m.filed f).isSome = (m.read f).isSome := by
  cases m with
  | remembered early slot p view => exact Reading.isSome_andThen.trans Reading.isSome_andThen.symm
  | _ => cases hk

end Method

/-- An order in which iterators are bound: `before x i` says that `x` is bound before `i`. The
memory keeps an element under places alone, so a definition or a lemma about what is found without a
memory takes the order that it is found in as an argument. -/
structure Precedence where
  before : NodeId → NodeId → Bool

/-- Each iterator is bound after all that could make a difference to it. -/
def Precedence.last : Precedence := ⟨fun _ _ => true⟩

/-- The element of an iterator at a place, where those before it are bound. -/
def Plan.elementAt (o : Precedence) (id : NodeId) (scope : Scope) (index : Nat) :
    Plan (Option Local) := do
  match ← Plan.node? id with
  | none => return none
  | some n =>
    let (values, sources) ← Plan.query (.elements n (scope.only (o.before · id)))
    return values[index]?.map fun v => ⟨v, index, sources⟩

namespace Engine

variable {o : Precedence} {e e' : Engine}

/-- A method that does not rely on the elements that a scope holds, but on their places alone. -/
def placed (o : Precedence) (e : Engine) : (q : Query) → Method q.Answer
  | .bound id scope =>
    match scope.lookup id with
    | some l => .plan (Plan.elementAt o id scope l.index)
    | none => .known none ∅
  | q => e.method q

/-- The answer without a memory, if it lies no deeper than `depth`. -/
def plain (o : Precedence) (e : Engine) : (depth : Nat) → (q : Query) → Reading q.Answer
  | 0, _ => none
  | depth + 1, q => (e.placed o q).read (e.plain o depth)

theorem plain_succ {d : Nat} {q : Query} {x : q.Answer × NodeSet} (h : e.plain o d q = some x) :
    e.plain o (d + 1) q = some x := by
  induction d generalizing q with
  | zero => cases h
  | succ d ih => exact Method.read_mono (fun q x => ih) h

theorem plain_mono {d d' : Nat} (hd : d ≤ d') {q : Query} {x : q.Answer × NodeSet}
    (h : e.plain o d q = some x) : e.plain o d' q = some x := by
  induction hd with
  | refl => exact h
  | step _ ih => exact plain_succ ih

theorem plain_unique {d d' : Nat} {q : Query} {x y : q.Answer × NodeSet}
    (h : e.plain o d q = some x) (h' : e.plain o d' q = some y) : x = y :=
  Option.some.inj ((plain_mono (Nat.le_max_left d d') h).symm.trans
    (plain_mono (Nat.le_max_right d d') h'))

theorem run_plain_mono {α : Type} {d d' : Nat} (hd : d ≤ d') {p : Plan α} {x : α × NodeSet}
    (h : p.run (e.plain o d) = some x) : p.run (e.plain o d') = some x :=
  Plan.run_mono (fun _ _ => plain_mono hd) h

end Engine

/-! ## Reads support answers -/

theorem Slot.early_union {α : Type} (slot : Slot α) (early : Bool) (reads : NodeSet) :
    slot.early early ∪ ({slot.key.node} ∪ reads) = {slot.key.node} ∪ reads := by
  refine Std.ExtTreeSet.ext_mem fun {id} => ?_
  unfold Slot.early
  split
  · simp only [Std.ExtTreeSet.mem_union_iff, or_self_left]
  · rw [Tables.empty_union]

theorem Method.mem_reads {α β : Type} {early : Bool} {slot : Slot α} {p : Plan α} {view : α → β}
    {f : (q : Query) → Reading q.Answer} {b : β} {reads : NodeSet}
    (h : (Method.remembered early slot p view).read f = some (b, reads)) :
    slot.key.node ∈ reads := by
  obtain ⟨a, r, -, hr⟩ := Reading.andThen_some.1 h
  obtain rfl := congrArg Prod.snd hr
  exact Std.ExtTreeSet.mem_union_iff.2 (.inl (Tables.mem_singleton.2 rfl))

/-- Where each plan comes to the same end, so does the method. -/
theorem Method.read_congr {α : Type} {f g : (q : Query) → Reading q.Answer} {m : Method α} {a : α}
    {reads : NodeSet} (h : m.read f = some (a, reads))
    (hrun : ∀ {β : Type} {p : Plan β} {b : β} {r : NodeSet}, p.run f = some (b, r) →
      (∀ id ∈ r, id ∈ reads) → p.run g = some (b, r)) : m.read g = some (a, reads) := by
  cases m with
  | known b r => exact h
  | plan p => exact hrun h fun _ hid => hid
  | framed p =>
    obtain ⟨b, r, hp, hr⟩ := Reading.andThen_some.1 h
    refine Reading.andThen_some.2 ⟨b, r, hrun hp fun id hid => ?_, hr⟩
    obtain rfl := congrArg Prod.snd hr
    exact hid
  | remembered early slot p view =>
    obtain ⟨b, r, hp, hr⟩ := Reading.andThen_some.1 h
    refine Reading.andThen_some.2 ⟨b, r, hrun hp fun id hid => ?_, hr⟩
    obtain rfl := congrArg Prod.snd hr
    exact Std.ExtTreeSet.mem_union_iff.2 (.inr hid)

/-- What is remembered goes with an answer that has the same reads. -/
theorem Method.read_of_filed {α : Type} {f : (q : Query) → Reading q.Answer} {m : Method α}
    {k : Key} {en : Entry} (h : m.filed f = some (k, en)) : ∃ a, m.read f = some (a, en.reads) := by
  cases m with
  | remembered early slot p view =>
    obtain ⟨a, r, hp, hr⟩ := Reading.andThen_some.1 h
    obtain ⟨rfl, rfl⟩ := Prod.mk.inj hr
    exact ⟨view a, Reading.andThen_some.2 ⟨a, r, hp, rfl⟩⟩
  | _ => cases h

theorem Method.filed_congr {α : Type} {f g : (q : Query) → Reading q.Answer} {m : Method α}
    {k : Key} {en : Entry} (h : m.filed f = some (k, en))
    (hrun : ∀ {β : Type} {p : Plan β} {b : β} {r : NodeSet}, p.run f = some (b, r) →
      (∀ id ∈ r, id ∈ en.reads) → p.run g = some (b, r)) : m.filed g = some (k, en) := by
  cases m with
  | remembered early slot p view =>
    obtain ⟨a, r, hp, hr⟩ := Reading.andThen_some.1 h
    refine Reading.andThen_some.2 ⟨a, r, hrun hp fun id hid => ?_, hr⟩
    obtain ⟨rfl, rfl⟩ := Prod.mk.inj hr
    exact Std.ExtTreeSet.mem_union_iff.2 (.inr hid)
  | _ => cases h

namespace Engine

variable {o : Precedence} {e e' : Engine}

/-- A method looks at no node that it does not read. -/
theorem placed_congr (hc : e'.catalogue = e.catalogue) (hl : e'.limit = e.limit) {q : Query}
    {f : (q : Query) → Reading q.Answer} {a : q.Answer} {reads : NodeSet}
    (h : (e.placed o q).read f = some (a, reads))
    (hs : ∀ id ∈ reads, e'.graph.SameAt e.graph id) : e'.placed o q = e.placed o q := by
  obtain ⟨g, catalogue, limit⟩ := e
  obtain ⟨g', catalogue', limit'⟩ := e'
  subst hc
  subst hl
  cases q with
  | node id =>
    cases h
    simp only [placed, method, (hs id (Tables.mem_singleton.2 rfl)).node]
  | connectionsInto id key =>
    have hid := (hs id (Method.mem_reads h)).connections
    simp only [placed, method, Graph.connectionsInto, hid]
  | connectionsFrom id key =>
    have hid := (hs id (Method.mem_reads h)).connections
    simp only [placed, method, Graph.connectionsFrom, hid]
  | ports id =>
    have hid : g'.node? id = g.node? id := by
      refine (hs id ?_).node
      simp only [placed, method] at h
      split at h
      · cases h
        exact Tables.mem_singleton.2 rfl
      · exact Method.mem_reads h
    simp only [placed, method, hid]
  | _ => rfl

theorem run_plain_congr {α : Type} {d : Nat} {p : Plan α} {a : α} {reads : NodeSet}
    (ih : ∀ (q : Query) (a : q.Answer) (reads : NodeSet), e.plain o d q = some (a, reads) →
      (∀ id ∈ reads, e'.graph.SameAt e.graph id) → e'.plain o d q = some (a, reads))
    (h : p.run (e.plain o d) = some (a, reads))
    (hs : ∀ id ∈ reads, e'.graph.SameAt e.graph id) : p.run (e'.plain o d) = some (a, reads) := by
  induction p generalizing reads with
  | done b => exact h
  | ask q next ihp =>
    obtain ⟨b, r, s, hq, hn, rfl⟩ := Plan.run_ask_some.1 h
    refine Plan.run_ask_some.2 ⟨b, r, s, ih q b r hq fun id hid => hs id ?_, ihp b hn fun id hid =>
      hs id ?_, rfl⟩
    · exact Std.ExtTreeSet.mem_union_iff.2 (.inl hid)
    · exact Std.ExtTreeSet.mem_union_iff.2 (.inr hid)

/-- In a graph that is the same at all nodes read, the answer is the same, and so are its reads: by
induction on the depth, as the method is the same (`placed_congr`) and its plan gets the same
answers. -/
theorem plain_congr (hc : e'.catalogue = e.catalogue) (hl : e'.limit = e.limit) {d : Nat}
    {q : Query} {a : q.Answer} {reads : NodeSet} (h : e.plain o d q = some (a, reads))
    (hs : ∀ id ∈ reads, e'.graph.SameAt e.graph id) : e'.plain o d q = some (a, reads) := by
  induction d generalizing q reads with
  | zero => cases h
  | succ d ih =>
    change (e.placed o q).read (e.plain o d) = _ at h
    change (e'.placed o q).read (e'.plain o d) = _
    rw [placed_congr hc hl h hs]
    exact Method.read_congr h fun hp hr =>
      run_plain_congr (fun q a reads => ih) hp fun id hid => hs id (hr id hid)

/-- What is remembered of an answer holds as long as the graph is the same at all nodes read. -/
theorem filed_congr (hc : e'.catalogue = e.catalogue) (hl : e'.limit = e.limit) {d : Nat}
    {q : Query} {k : Key} {en : Entry} (h : (e.placed o q).filed (e.plain o d) = some (k, en))
    (hs : ∀ id ∈ en.reads, e'.graph.SameAt e.graph id) :
    (e'.placed o q).filed (e'.plain o d) = some (k, en) := by
  obtain ⟨a, hr⟩ := Method.read_of_filed h
  rw [placed_congr hc hl hr hs]
  exact Method.filed_congr h fun hp hr =>
    run_plain_congr (fun q a reads => plain_congr hc hl) hp fun id hid => hs id (hr id hid)

end Engine

end Dataflow
