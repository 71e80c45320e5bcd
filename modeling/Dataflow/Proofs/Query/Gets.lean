import Mathlib.Logic.Function.Basic
import Dataflow.Proofs.Query.Ends
import Dataflow.Proofs.Query.Eval

/-! What a plan comes to with the answers that it gets in a run (`Gets`).

As long as no question is answered now this way and now that, the answers are those of a function. A
plan that asks nothing twice can always be taken so (`Fresh`). -/

namespace Dataflow.Plan

variable {α β σ : Type} {ask : (q : Query) → StateM σ q.Answer}
  {answer answer' : (q : Query) → q.Answer} {p : Plan α} {s : σ}

/-- The plan is carried out from the state, and its questions are answered as by the function. -/
def Gets (ask : (q : Query) → StateM σ q.Answer) (answer : (q : Query) → q.Answer) :
    Plan α → σ → Prop
  | done _, _ => True
  | .ask q next, s => (ask q s).1 = answer q ∧ Gets ask answer (next (ask q s).1) (ask q s).2

theorem Gets.run_eq (h : p.Gets ask answer s) : (p.run ask s).1 = p.eval answer := by
  induction p generalizing s with
  | done a => rfl
  | ask q next ih =>
    rw [eval, ← h.1]
    exact ih _ h.2

/-- Where one function says otherwise, the other one is right whatever the state. -/
theorem Gets.of_forall (h : p.Gets ask answer s)
    (hanswer : ∀ q, answer' q = answer q ∨ ∀ s, (ask q s).1 = answer' q) :
    p.Gets ask answer' s := by
  induction p generalizing s with
  | done a => trivial
  | ask q next ih =>
    refine ⟨?_, ih _ h.2⟩
    rcases hanswer q with heq | hright
    · exact h.1.trans heq.symm
    · exact hright s

/-! ## One plan for each of a list -/

theorem run_mapM_cons (f : α → Plan β) (a : α) (as : List α) (s : σ) :
    ((a :: as).mapM f).run ask s =
      (((f a).run ask s).1 :: ((as.mapM f).run ask ((f a).run ask s).2).1,
        ((as.mapM f).run ask ((f a).run ask s).2).2) := by
  rw [List.mapM_cons]
  simp only [run_bind, run_pure]
  rfl

theorem length_run_mapM (f : α → Plan β) (as : List α) (s : σ) :
    ((as.mapM f).run ask s).1.length = as.length := by
  induction as generalizing s with
  | nil => rfl
  | cons a as ih =>
    rw [run_mapM_cons]
    exact congrArg Nat.succ (ih _)

/-- Each one is carried out from the state that those before it leave. -/
theorem getElem?_run_mapM {f : α → Plan β} {as : List α} {k : Nat} {a : α} (h : as[k]? = some a)
    (s : σ) : ((as.mapM f).run ask s).1[k]? =
      some ((f a).run ask (((as.take k).mapM f).run ask s).2).1 := by
  induction as generalizing s k with
  | nil => cases h
  | cons b as ih =>
    rw [run_mapM_cons]
    cases k with
    | zero =>
      obtain rfl : b = a := by simpa using h
      rfl
    | succ k =>
      rw [List.take_succ_cons, run_mapM_cons]
      exact ih h _

/-! ## Plans that ask nothing twice -/

variable {right : (q : Query) → q.Answer → Prop} {asked asked' : Query → Prop}

/-- Provided that it gets right answers, the plan asks nothing twice, and nothing of `asked`. -/
def Fresh (right : (q : Query) → q.Answer → Prop) (asked : Query → Prop) : Plan α → Prop
  | done _ => True
  | .ask q next => ¬asked q ∧ ∀ a, right q a → Fresh right (fun q' => asked q' ∨ q' = q) (next a)

namespace Fresh

theorem mono (hp : p.Fresh right asked) (h : ∀ q, asked' q → asked q) :
    p.Fresh right asked' := by
  induction p generalizing asked asked' with
  | done a => trivial
  | ask q next ih =>
    exact ⟨fun hq => hp.1 (h q hq), fun a ha => ih a (hp.2 a ha) fun q' => Or.imp_left (h q')⟩

theorem query {q : Query} {f : q.Answer → Plan β} (h : ¬asked q)
    (hf : ∀ a, right q a → (f a).Fresh right fun q' => asked q' ∨ q' = q) :
    (Plan.query q >>= f).Fresh right asked :=
  ⟨h, hf⟩

/-- One plan after another asks nothing twice if the second one leaves out all that the first one
may ask. -/
theorem bind {P : Query → Prop} {Q : α → Prop} {f : α → Plan β} (hp : p.Fresh right asked)
    (hends : p.Ends P right Q) (hf : ∀ a, Q a → (f a).Fresh right fun q => asked q ∨ P q) :
    (p >>= f).Fresh right asked := by
  induction p generalizing asked with
  | done a => exact (hf a hends).mono fun _ => .inl
  | ask q next ih =>
    refine ⟨hp.1, fun a ha => ih a (hp.2 a ha) (hends.2 a ha) fun b hb => (hf b hb).mono ?_⟩
    rintro q' ((hq' | rfl) | hq')
    · exact .inl hq'
    · exact .inr hends.1
    · exact .inr hq'

end Fresh

/-- What is asked no more may be answered in any way. -/
theorem Gets.congr (hright : ∀ q s, right q (ask q s).1) (hp : p.Fresh right asked)
    (hanswer : ∀ q, ¬asked q → answer' q = answer q) (h : p.Gets ask answer s) :
    p.Gets ask answer' s := by
  induction p generalizing s asked with
  | done a => trivial
  | ask q next ih =>
    refine ⟨h.1.trans (hanswer q hp.1).symm, ih _ (hp.2 _ (hright q s)) (fun q' hq' => ?_) h.2⟩
    exact hanswer q' fun ha => hq' (.inl ha)

theorem Fresh.exists_gets (hright : ∀ q s, right q (ask q s).1) (hp : p.Fresh right asked)
    (s : σ) : ∃ answer, p.Gets ask answer s := by
  classical
  induction p generalizing s asked with
  | done a => exact ⟨Query.silence, trivial⟩
  | ask q next ih =>
    have hnext := hp.2 _ (hright q s)
    obtain ⟨answer, h⟩ := ih _ hnext (ask q s).2
    refine ⟨Function.update answer q (ask q s).1, (Function.update_self ..).symm, ?_⟩
    exact h.congr hright hnext fun q' hq' => Function.update_of_ne (fun he => hq' (.inr he)) ..

end Dataflow.Plan
