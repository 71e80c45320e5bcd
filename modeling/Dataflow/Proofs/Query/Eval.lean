import Dataflow.Query.Inputs

/-! What a plan comes to when every question has one answer (`Plan.eval`). -/

namespace Dataflow.Plan

variable {α β ε : Type} {answer : (q : Query) → q.Answer}

def eval (answer : (q : Query) → q.Answer) : Plan α → α
  | done a => a
  | ask q next => (next (answer q)).eval answer

@[simp] theorem eval_pure (a : α) : (pure a : Plan α).eval answer = a := rfl

@[simp] theorem eval_query (q : Query) : (query q).eval answer = answer q := rfl

/-- It is what comes of carrying it out while nothing is remembered in between. -/
theorem eval_eq_run (p : Plan α) :
    p.eval answer = (p.run (fun q => (pure (answer q) : StateM Unit q.Answer)) ()).1 := by
  induction p with
  | done a => rfl
  | ask q next ih => exact ih (answer q)

@[simp] theorem eval_bind (p : Plan α) (f : α → Plan β) :
    (p >>= f).eval answer = (f (p.eval answer)).eval answer := by
  induction p with
  | done a => rfl
  | ask q next ih => exact ih (answer q)

@[simp] theorem eval_map (f : α → β) (p : Plan α) : (f <$> p).eval answer = f (p.eval answer) :=
  eval_bind p fun a => pure (f a)

@[simp] theorem eval_mapM (f : α → Plan β) (as : List α) :
    (as.mapM f).eval answer = as.map fun a => (f a).eval answer := by
  induction as with
  | nil => rfl
  | cons a as ih => simp only [List.mapM_cons, eval_bind, eval_pure, ih, List.map_cons]

section Inputs

variable (id : NodeId) (key : String) (context : Context)

@[simp] theorem eval_node? : (node? id).eval answer = answer (.node id) := rfl

@[simp] theorem eval_connectionsInto :
    (connectionsInto id key).eval answer = answer (.connectionsInto id key) := rfl

@[simp] theorem eval_connectionsFrom :
    (connectionsFrom id key).eval answer = answer (.connectionsFrom id key) := rfl

@[simp] theorem eval_outputType :
    (outputType id key context).eval answer = answer (.outputType id key context) := rfl

@[simp] theorem eval_deliveredType :
    (deliveredType id key context).eval answer = answer (.deliveredType id key context) := rfl

@[simp] theorem eval_expectedType :
    (expectedType id key context).eval answer = answer (.expectedType id key context) := rfl

end Inputs

end Dataflow.Plan
