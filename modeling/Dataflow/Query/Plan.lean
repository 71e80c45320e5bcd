import Dataflow.Query.Basic

/-! Plans: questions asked one after the other, where each may depend on the answers so far. -/

namespace Dataflow

inductive Plan (α : Type) : Type where
  | done (a : α)
  | ask (q : Query) (next : q.Answer → Plan α)

namespace Plan

variable {α β : Type}

def bind : Plan α → (α → Plan β) → Plan β
  | done a, f => f a
  | ask q next, f => ask q fun answer => (next answer).bind f

instance : Monad Plan where
  pure := done
  bind := bind

theorem bind_done (p : Plan α) : p.bind done = p := by
  induction p with
  | done a => rfl
  | ask q next ih => exact congrArg (ask q) (funext ih)

theorem bind_assoc {γ : Type} (p : Plan α) (f : α → Plan β) (g : β → Plan γ) :
    (p.bind f).bind g = p.bind fun a => (f a).bind g := by
  induction p with
  | done a => rfl
  | ask q next ih => exact congrArg (ask q) (funext ih)

instance : LawfulMonad Plan := .mk' Plan bind_done (fun _ _ => rfl) bind_assoc

/-- The answer to one question. -/
def query (q : Query) : Plan q.Answer := ask q done

/-- Carries out a plan with the answers that `answer` gives. -/
@[specialize] def run {m : Type → Type} [Monad m] (answer : (q : Query) → m q.Answer) :
    Plan α → m α
  | done a => pure a
  | ask q next => answer q >>= fun a => run answer (next a)

section Run

variable {m : Type → Type} [Monad m] (answer : (q : Query) → m q.Answer)

@[simp] theorem run_pure (a : α) : run answer (pure a) = pure a := rfl

@[simp] theorem run_query [LawfulMonad m] (q : Query) : run answer (query q) = answer q :=
  bind_pure (answer q)

/-- Carrying out one plan after another asks the questions of both in turn. -/
@[simp] theorem run_bind [LawfulMonad m] (p : Plan α) (f : α → Plan β) :
    run answer (p >>= f) = run answer p >>= fun a => run answer (f a) := by
  induction p with
  | done a => exact (pure_bind a fun a => run answer (f a)).symm
  | ask q next ih =>
    rw [run, LawfulMonad.bind_assoc]
    exact congrArg (answer q >>= ·) (funext ih)

end Run

end Plan

end Dataflow
