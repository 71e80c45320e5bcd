import Dataflow.Engine
import Dataflow.Proofs.Memo.Frames

/-! The ways in which questions are answered.

An answer is known at once, or it takes a plan; and a plan may have a frame of its own, with or
without its answer being remembered. All that is proved of questions is proved for these few ways
(`Method`): by `answer_succ` every question is answered by its method. -/

namespace Dataflow

open Memo (Table Key Entry Frame)

/-- How answers of one kind are remembered, and what is said to who asks for one that is being
worked out. -/
structure Slot (α : Type) where
  key : Key
  onCycle : α
  wrap : α → Memo.Answer
  unwrap : Memo.Answer → Option α
  unwrap_wrap : ∀ a, unwrap (wrap a) = some a

/-- What is read before it is looked up whether the answer is remembered. -/
def Slot.early {α : Type} (slot : Slot α) (early : Bool) : NodeSet :=
  if early then {slot.key.node} else ∅

inductive Method : Type → Type 1 where
  /-- Known, after some nodes are read. -/
  | known {α : Type} (a : α) (reads : NodeSet) : Method α
  | plan {α : Type} (p : Plan α) : Method α
  /-- In a frame, whose reads belong to the answer. -/
  | framed {α : Type} (p : Plan α) : Method (α × NodeSet)
  /-- Remembered, maybe after the node in question is read; `view` shows what is remembered. -/
  | remembered {α β : Type} (early : Bool) (slot : Slot α) (p : Plan α) (view : α → β) : Method β

namespace Method

variable {α : Type}

/-- What the method asks for. -/
def work (answer : List Key → (q : Query) → Engine.Work q.Answer) (working : List Key) :
    {α : Type} → Method α → Engine.Work α
  | _, known a reads => fun t => some (a, t.readAll reads)
  | _, plan p => p.run (answer working)
  | _, framed p => fun t => do
    let (b, t) ← p.run (answer working) t.enter
    return ((b, t.leave.1.reads), t.leave.2)
  | _, remembered early slot p view => fun t =>
    (view <$> Engine.remember slot.key slot.onCycle slot.wrap slot.unwrap working
      fun working => p.run (answer working)) (t.readAll (slot.early early))

/-- The key under which the answer is remembered, if it is. -/
def key? : {α : Type} → Method α → Option Key
  | _, remembered _ slot _ _ => some slot.key
  | _, _ => none

end Method

namespace Slot

def value (key : Key) : Slot Value := ⟨key, .nothing, .value, Memo.Answer.value?, fun _ => rfl⟩

def type (key : Key) : Slot ValueType :=
  ⟨key, .mismatch "cycle", .type, Memo.Answer.type?, fun _ => rfl⟩

def ports (key : Key) : Slot (List Port) := ⟨key, [], .ports, Memo.Answer.ports?, fun _ => rfl⟩

def connections (key : Key) : Slot (List Connection) :=
  ⟨key, [], .connections, Memo.Answer.connections?, fun _ => rfl⟩

end Slot

/-- What an answer to the question is remembered under, if answers of its kind are. -/
def Query.key? : Query → Option Key
  | connectionsInto id key => some (.inScope .connections id [] ("into:" ++ key))
  | connectionsFrom id key => some (.inScope .connections id [] ("from:" ++ key))
  | ports id => some (.inScope .ports id [] "")
  | value id scope key => some (.inScope .value id scope.key key)
  | outputType id key context => some (.inContext .outputType id context.key key)
  | deliveredType id key context => some (.inContext .deliveredType id context.key key)
  | _ => none

namespace Engine

variable (e : Engine)

def method : (q : Query) → Method q.Answer
  | .node id => .known (e.graph.node? id) {id}
  | .bound id scope =>
    match scope.lookup id with
    | some l => .known (some l) l.sources
    | none => .known none ∅
  | .connectionsInto id key =>
    .remembered false (.connections (.inScope .connections id [] ("into:" ++ key)))
      (pure (e.graph.connectionsInto id key)) fun cs => cs
  | .connectionsFrom id key =>
    .remembered false (.connections (.inScope .connections id [] ("from:" ++ key)))
      (pure (e.graph.connectionsFrom id key)) fun cs => cs
  | .ports id =>
    match e.graph.node? id with
    | none => .known none {id}
    | some n => .remembered true (.ports (.inScope .ports id [] "")) (portsPlan n) some
  | .value id scope key =>
    .remembered false (.value (.inScope .value id scope.key key)) (e.valuePlan id scope key)
      fun v => v
  | .outputType id key context =>
    .remembered false (.type (.inContext .outputType id context.key key))
      (e.outputTypePlan id key context) fun t => t
  | .deliveredType id key context =>
    match context.provisional? id with
    | some t => .known t ∅
    | none =>
      .remembered false (.type (.inContext .deliveredType id context.key key))
        (e.deliveredTypePlan id key context) fun t => t
  | .expectedType id key context => .plan (e.expectedTypePlan id key context)
  | .emptyValue type => .known (type.emptyValue e.catalogue.kinds) ∅
  | .visit id scope seen found => .plan (e.visitPlan id scope seen found)
  | .elements iterator scope => .framed ((e.definition iterator).elements iterator scope)
  | .limit => .known e.limit ∅

theorem method_key? {q : Query} {k : Key} (h : (e.method q).key? = some k) : q.key? = some k := by
  cases q with
  | bound id scope =>
    simp only [method] at h
    split at h <;> cases h
  | ports id =>
    simp only [method] at h
    split at h
    · cases h
    · exact h
  | deliveredType id key context =>
    simp only [method] at h
    split at h
    · cases h
    · exact h
  | _ => exact h

/-- Every question is answered by its method. -/
theorem answer_succ (depth : Nat) (working : List Key) (q : Query) :
    e.answer (depth + 1) working q = (e.method q).work (e.answer depth) working := by
  cases q with
  | node id =>
    funext t
    simp only [answer, method, Method.work, Table.read_eq_readAll]
  | bound id scope =>
    funext t
    simp only [answer, method]
    cases scope.lookup id with
    | none => simp only [Method.work, Table.readAll_empty]
    | some l => rfl
  | connectionsInto id key =>
    funext t
    simp only [answer, method, Method.work, Slot.early, Bool.false_eq_true, if_false,
      Table.readAll_empty, id_map']
    rfl
  | connectionsFrom id key =>
    funext t
    simp only [answer, method, Method.work, Slot.early, Bool.false_eq_true, if_false,
      Table.readAll_empty, id_map']
    rfl
  | ports id =>
    funext t
    simp only [answer, method]
    cases e.graph.node? id with
    | none => simp only [Method.work, Table.read_eq_readAll]
    | some n =>
      simp only [Method.work, Table.read_eq_readAll]
      rfl
  | value id scope key =>
    funext t
    simp only [answer, method, Method.work, Slot.early, Bool.false_eq_true, if_false,
      Table.readAll_empty, id_map']
    rfl
  | outputType id key context =>
    funext t
    simp only [answer, method, Method.work, Slot.early, Bool.false_eq_true, if_false,
      Table.readAll_empty, id_map']
    rfl
  | deliveredType id key context =>
    funext t
    simp only [answer, method]
    cases context.provisional? id with
    | some type =>
      simp only [Method.work, Table.readAll_empty]
      rfl
    | none =>
      simp only [Method.work, Slot.early, Bool.false_eq_true, if_false, Table.readAll_empty,
        id_map']
      rfl
  | expectedType id key context => rfl
  | emptyValue type =>
    funext t
    simp only [answer, method, Method.work, Table.readAll_empty]
    rfl
  | visit id scope seen found => rfl
  | elements iterator scope => rfl
  | limit =>
    funext t
    simp only [answer, method, Method.work, Table.readAll_empty]
    rfl

end Engine

end Dataflow
