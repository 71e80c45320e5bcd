import Mathlib.Data.List.Forall2
import Dataflow.Query.Plan

/-! What a plan asks and what it ends with, as long as the answers that it gets are right (`Ends`).

The rules go by the parts of a plan: `pure`, `query`, `bind` and `mapM`. -/

namespace Dataflow.Plan

variable {α β : Type} {P : Query → Prop} {right : (q : Query) → q.Answer → Prop} {Q Q' : α → Prop}
  {R : β → Prop}

/-- Provided that it gets right answers, the plan asks only questions of `P` and ends with a result
of `Q`. -/
def Ends (P : Query → Prop) (right : (q : Query) → q.Answer → Prop) (Q : α → Prop) : Plan α → Prop
  | done a => Q a
  | ask q next => P q ∧ ∀ a, right q a → (next a).Ends P right Q

/-- The plan asks only questions of `P`, provided that it gets right answers. -/
abbrev Within (P : Query → Prop) (right : (q : Query) → q.Answer → Prop) (p : Plan α) : Prop :=
  p.Ends P right fun _ => True

namespace Ends

theorem pure {a : α} (h : Q a) : (Pure.pure a : Plan α).Ends P right Q := h

theorem query {q : Query} (h : P q) : (Plan.query q).Ends P right (right q) := ⟨h, fun _ ha => ha⟩

theorem mono {p : Plan α} (h : p.Ends P right Q) (hQ : ∀ a, Q a → Q' a) : p.Ends P right Q' := by
  induction p with
  | done a => exact hQ a h
  | ask q next ih => exact ⟨h.1, fun a ha => ih a (h.2 a ha)⟩

theorem weaken {P' : Query → Prop} {p : Plan α} (h : p.Ends P right Q) (hP : ∀ q, P q → P' q) :
    p.Ends P' right Q := by
  induction p with
  | done a => exact h
  | ask q next ih => exact ⟨hP q h.1, fun a ha => ih a (h.2 a ha)⟩

/-- With fewer right answers there is less to show. -/
theorem narrow {right' : (q : Query) → q.Answer → Prop} {p : Plan α} (h : p.Ends P right Q)
    (hr : ∀ q a, right' q a → right q a) : p.Ends P right' Q := by
  induction p with
  | done a => exact h
  | ask q next ih => exact ⟨h.1, fun a ha => ih a (h.2 a (hr q a ha))⟩

theorem and {p : Plan α} {P' : Query → Prop} (h : p.Ends P right Q) (h' : p.Ends P' right Q') :
    p.Ends P right fun a => Q a ∧ Q' a := by
  induction p with
  | done a => exact ⟨h, h'⟩
  | ask q next ih => exact ⟨h.1, fun a ha => ih a (h.2 a ha) (h'.2 a ha)⟩

theorem bind {p : Plan α} {f : α → Plan β} (h : p.Ends P right Q)
    (hf : ∀ a, Q a → (f a).Ends P right R) : (p >>= f).Ends P right R := by
  induction p with
  | done a => exact hf a h
  | ask q next ih => exact ⟨h.1, fun a ha => ih a (h.2 a ha)⟩

theorem map {p : Plan α} {f : α → β} (h : p.Ends P right Q) (hf : ∀ a, Q a → R (f a)) :
    (f <$> p).Ends P right R :=
  h.bind hf

/-- Whatever is asked for each element, the results hold of the elements one by one. -/
theorem mapM {S : α → β → Prop} {f : α → Plan β} {as : List α}
    (h : ∀ a ∈ as, (f a).Ends P right (S a)) :
    (as.mapM f).Ends P right fun bs => List.Forall₂ S as bs := by
  induction as with
  | nil => exact pure .nil
  | cons a as ih =>
    rw [List.mapM_cons]
    exact (h a List.mem_cons_self).bind fun b hb =>
      (ih fun a ha => h a (List.mem_cons_of_mem _ ha)).bind fun bs hbs => pure (.cons hb hbs)

theorem mapM_all {f : α → Plan β} {as : List α} (h : ∀ a ∈ as, (f a).Ends P right R) :
    (as.mapM f).Ends P right fun bs => ∀ b ∈ bs, R b := by
  refine (mapM (S := fun _ => R) h).mono fun bs hbs => ?_
  clear h
  induction hbs with
  | nil => exact List.forall_mem_nil _
  | cons hb _ ih => exact List.forall_mem_cons.2 ⟨hb, ih⟩

theorem mapM_exists {S : α → β → Prop} {f : α → Plan β} {as : List α}
    (h : ∀ a ∈ as, (f a).Ends P right (S a)) :
    (as.mapM f).Ends P right fun bs => ∀ a ∈ as, ∃ b ∈ bs, S a b := by
  refine (mapM h).mono fun bs hbs => ?_
  clear h
  induction hbs with
  | nil => exact List.forall_mem_nil _
  | cons hb _ ih =>
    refine List.forall_mem_cons.2 ⟨⟨_, List.mem_cons_self, hb⟩, fun a ha => ?_⟩
    obtain ⟨b, hb, hab⟩ := ih a ha
    exact ⟨b, List.mem_cons_of_mem _ hb, hab⟩

theorem mapM_eq {f : α → Plan β} {g : α → β} {as : List α}
    (h : ∀ a ∈ as, (f a).Ends P right (g a = ·)) : (as.mapM f).Ends P right (as.map g = ·) := by
  refine (mapM h).mono fun bs hbs => ?_
  have hbs : List.Forall₂ Eq (as.map g) bs := List.forall₂_map_left_iff.2 hbs
  rwa [List.forall₂_eq_eq_eq] at hbs

theorem foldlM {I : β → Prop} {f : β → α → Plan β} {as : List α} {b : β} (hb : I b)
    (h : ∀ b, I b → ∀ a ∈ as, (f b a).Ends P right I) : (as.foldlM f b).Ends P right I := by
  induction as generalizing b with
  | nil => exact pure hb
  | cons a as ih =>
    rw [List.foldlM_cons]
    exact (h b hb a List.mem_cons_self).bind fun b hb =>
      ih hb fun b hb a ha => h b hb a (List.mem_cons_of_mem _ ha)

end Ends

namespace Within

theorem pure (a : α) : (Pure.pure a : Plan α).Within P right := trivial

theorem query {q : Query} (h : P q) : (Plan.query q).Within P right := ⟨h, fun _ _ => trivial⟩

theorem bind {p : Plan α} {f : α → Plan β} (h : p.Within P right)
    (hf : ∀ a, (f a).Within P right) : (p >>= f).Within P right :=
  Ends.bind h fun a _ => hf a

theorem all (h : ∀ q, P q) (p : Plan α) : p.Within P right := by
  induction p with
  | done a => trivial
  | ask q next ih => exact ⟨h q, fun a _ => ih a⟩

theorem map {p : Plan α} (h : p.Within P right) (f : α → β) : (f <$> p).Within P right :=
  Ends.map h fun _ _ => trivial

theorem mapM {f : α → Plan β} {as : List α} (h : ∀ a ∈ as, (f a).Within P right) :
    (as.mapM f).Within P right :=
  (Ends.mapM (S := fun _ _ => True) h).mono fun _ _ => trivial

variable {ε : Type}

/-- A plan that may fail, one part after the other. -/
theorem bindExcept {p : ExceptT ε Plan α} {f : α → ExceptT ε Plan β} (h : p.run.Within P right)
    (hf : ∀ a, (f a).run.Within P right) : (p >>= f).run.Within P right :=
  Within.bind h fun a => by
    cases a with
    | error r => exact pure _
    | ok a => exact hf a

theorem lift {p : Plan α} (h : p.Within P right) :
    (liftM p : ExceptT ε Plan α).run.Within P right :=
  Within.bind h fun _ => pure _

end Within

/-! ## Plans that may fail -/

section Yields

variable {ε : Type} {x : ExceptT ε Plan α} {f : α → ExceptT ε Plan β}

/-- If it succeeds, the plan gives a result of `Q`. -/
abbrev Yields (P : Query → Prop) (right : (q : Query) → q.Answer → Prop) (Q : α → Prop)
    (x : ExceptT ε Plan α) : Prop :=
  x.run.Ends P right fun r => ∀ a, r = .ok a → Q a

theorem Yields.pure {a : α} (h : Q a) :
    Yields P right Q (Pure.pure a : ExceptT ε Plan α) :=
  fun _ hb => Except.ok.inj hb ▸ h

theorem Yields.throw (r : ε) : Yields P right Q (throw r : ExceptT ε Plan α) :=
  fun _ hb => nomatch hb

theorem Yields.bind (h : Yields P right Q x) (hf : ∀ a, Q a → Yields P right R (f a)) :
    Yields P right R (x >>= f) :=
  Ends.bind h fun r hr => by
    cases r with
    | error r => exact Ends.pure fun _ hb => nomatch hb
    | ok a => exact hf a (hr a rfl)

theorem Yields.lift {p : Plan α} (h : p.Ends P right Q) :
    Yields P right Q (liftM p : ExceptT ε Plan α) :=
  Ends.bind h fun _ ha => Ends.pure fun _ hb => Except.ok.inj hb ▸ ha

theorem Yields.ofExcept {r : Except ε α} (h : ∀ a, r = .ok a → Q a) :
    Yields P right Q (liftM r : ExceptT ε Plan α) := by
  cases r with
  | error r => exact throw r
  | ok a => exact pure (h a rfl)

end Yields

end Dataflow.Plan
