import Dataflow.Proofs.Query.Ends
import Dataflow.Query.Expansion

/-! What holds of every combination of elements that a collector comes to, if it holds before the
first iterator is bound and with each one more (`Binds`). -/

namespace Dataflow.Plan

variable {P : Query → Prop} {right : (q : Query) → q.Answer → Prop} {S : Scope} {n : Node}
  {I J : Locals → Prop}

/-- The elements that one iterator has in a combination. -/
structure Binds (P : Query → Prop) (right : (q : Query) → q.Answer → Prop) (S : Scope) (n : Node)
    (I J : Locals → Prop) : Prop where
  ask : ∀ l, I l → P (.elements n (S.child l))
  bind : ∀ {l values sources v i}, I l → right (.elements n (S.child l)) (values, sources) →
    values[i]? = some v → J (l.insert n.id ⟨v, i, sources⟩)

theorem extend_ends (h : Binds P right S n I J) (limit : Nat) {count : Nat}
    {next locals : List Locals} (hnext : ∀ l ∈ next, J l) (hlocals : ∀ l ∈ locals, I l) :
    (extend limit S n count next locals).Ends P right fun found =>
      ∀ ls, found = some ls → ∀ l ∈ ls, J l := by
  induction locals generalizing count next with
  | nil =>
    refine .pure ?_
    rintro _ ⟨⟩ l hl
    exact hnext l (List.mem_reverse.1 hl)
  | cons l locals ih =>
    have hl := hlocals l List.mem_cons_self
    rw [extend]
    refine .bind (.query (h.ask l hl)) fun vs hvs => ?_
    obtain ⟨values, sources⟩ := vs
    dsimp only
    split
    · exact .pure fun _ h => by cases h
    refine ih (fun l' hl' => ?_) fun l' hl' => hlocals l' (List.mem_cons_of_mem _ hl')
    rw [List.reverseAux_eq, List.mem_append, List.mem_reverse] at hl'
    rcases hl' with hl' | hl'
    · obtain ⟨⟨v, i⟩, hv, rfl⟩ := List.mem_map.1 hl'
      exact h.bind hl hvs (List.mem_zipIdx_iff_getElem?.1 hv)
    · exact hnext l' hl'

variable {entries : List NodeId}

theorem combinations_keep (hnode : ∀ id, P (.node id))
    (h : ∀ x ∈ entries, ∀ n, right (.node x) (some n) → Binds P right S n I I) (limit : Nat)
    {locals : List Locals} (hlocals : ∀ l ∈ locals, I l) :
    (combinations limit S entries locals).Ends P right fun found =>
      ∀ ls, found = some ls → ∀ l ∈ ls, I l := by
  induction entries generalizing locals with
  | nil =>
    refine .pure ?_
    rintro _ ⟨⟩ l hl
    exact hlocals l hl
  | cons x entries ih =>
    have ih := @ih fun y hy => h y (List.mem_cons_of_mem _ hy)
    rw [combinations]
    refine .bind (.query (hnode x)) fun n hn => ?_
    cases n with
    | none => exact ih hlocals
    | some n =>
      refine .bind (extend_ends (h x List.mem_cons_self n hn) limit (by simp) hlocals)
        fun found hfound => ?_
      cases found with
      | none => exact .pure fun _ h => by cases h
      | some next => exact ih (hfound next rfl)

/-- A collector makes an array of what its input is in each combination. -/
theorem collect_ends {c : NodeId} {E : List NodeId → Prop} {R : Value → Prop}
    (hopen : (openEntries c S).Ends P right E) (hlimit : P .limit) (hnode : ∀ id, P (.node id))
    (h : ∀ entries, E entries → ∀ x ∈ entries, ∀ n, right (.node x) (some n) →
      Binds P right S n I I) (hnone : I ∅)
    (hinput : ∀ entries, E entries → entries ≠ [] → ∀ l, I l →
      (inputValue c "input" (S.child l)).Ends P right R) :
    (collect c S).Ends P right fun v => ∃ items, v = .array items ∧ ∀ v ∈ items, R v := by
  refine .bind hopen fun entries hentries => ?_
  split
  next => exact .pure ⟨[], rfl, by simp⟩
  next hne =>
  refine .bind (.bind (.query hlimit) fun limit _ => ?_) (Q := fun found =>
    ∀ ss, found = some ss → ∀ T ∈ ss, ∃ l, I l ∧ T = S.child l) fun found hfound => ?_
  · refine .map (combinations_keep hnode (h entries hentries) limit (by simpa using hnone))
      fun found hfound => ?_
    rintro ss hss T hT
    obtain ⟨ls, rfl, rfl⟩ := Option.map_eq_some_iff.1 hss
    obtain ⟨l, hl, rfl⟩ := List.mem_map.1 hT
    exact ⟨l, hfound ls rfl l hl, rfl⟩
  cases found with
  | none => exact .pure ⟨[], rfl, by simp⟩
  | some ss =>
    refine .bind (.mapM_all fun T hT => ?_) fun vs hvs => .pure ⟨vs, rfl, hvs⟩
    obtain ⟨l, hl, rfl⟩ := hfound ss rfl T hT
    exact hinput entries hentries (by simpa using hne) l hl

end Dataflow.Plan
