import Dataflow.Proofs.Engine.Method

/-! Runs of the engine: what it is to remember an answer, and that a deeper run comes to the same
end as one that is deep enough (`ask_eq`, `perform_eq`). -/

namespace Dataflow.Engine

open Memo (Table Key Entry Frame)

variable {α β : Type} {t t' : Table}

theorem bind_some {x : Work α} {f : α → Work β} {b : β} :
    (x >>= f) t = some (b, t') ↔ ∃ a t₁, x t = some (a, t₁) ∧ f a t₁ = some (b, t') := by
  change (x t).bind (fun at₁ => f at₁.1 at₁.2) = _ ↔ _
  rw [Option.bind_eq_some_iff, Prod.exists]

theorem map_some {x : Work α} {f : α → β} {b : β} :
    (f <$> x) t = some (b, t') ↔ ∃ a, x t = some (a, t') ∧ f a = b := by
  change (x t).bind (fun at₁ => some (f at₁.1, at₁.2)) = _ ↔ _
  simp only [Option.bind_eq_some_iff, Prod.exists, Option.some.injEq, Prod.mk.injEq]
  grind

theorem run_ask_some {ask : (q : Query) → Work q.Answer} {q : Query} {next : q.Answer → Plan α}
    {b : α} :
    (Plan.ask q next).run ask t = some (b, t') ↔
      ∃ a t₁, ask q t = some (a, t₁) ∧ (next a).run ask t₁ = some (b, t') :=
  bind_some

/-! ## Remembering -/

section Remember

variable {key : Key} {onCycle : α} {wrap : α → Memo.Answer} {unwrap : Memo.Answer → Option α}
  {working : List Key} {work : List Key → Work α} {a : α}

theorem remember_hit {en : Entry} (h : t.entries[key]? = some en)
    (ha : unwrap en.answer = some a) :
    remember key onCycle wrap unwrap working work t = some (a, (t.lookup key).2) := by
  obtain ⟨hf, -⟩ := Table.Passes.lookup_hit h
  simp only [remember, hf, Option.bind_some, ha]

theorem remember_cycle (h : t.entries[key]? = none) (hw : key ∈ working) :
    remember key onCycle wrap unwrap working work t =
      some (onCycle, (t.lookup key).2.markCyclic) := by
  obtain ⟨hf, -⟩ := Table.Passes.lookup_miss h
  simp only [remember, hf, Option.bind_none, hw, if_true]

theorem remember_miss (h : t.entries[key]? = none) (hw : key ∉ working) :
    remember key onCycle wrap unwrap working work t = some (a, t') ↔
      ∃ t₁, work (key :: working) ((t.lookup key).2.enter.read key.node) = some (a, t₁) ∧
        t' = t₁.finish key (wrap a) := by
  obtain ⟨hf, -⟩ := Table.Passes.lookup_miss h
  simp only [remember, hf, Option.bind_none, hw, if_false]
  change (work (key :: working) _).bind (fun at₁ => some (at₁.1, at₁.2.finish key _)) = _ ↔ _
  simp only [Option.bind_eq_some_iff, Prod.exists, Option.some.injEq, Prod.mk.injEq]
  constructor
  · rintro ⟨b, t₁, hb, rfl, rfl⟩
    exact ⟨t₁, hb, rfl⟩
  · rintro ⟨t₁, hb, rfl⟩
    exact ⟨a, t₁, hb, rfl, rfl⟩

theorem remember_mono {work' : List Key → Work α}
    (hw : ∀ ks t r, work ks t = some r → work' ks t = some r) {r : α × Table}
    (h : remember key onCycle wrap unwrap working work t = some r) :
    remember key onCycle wrap unwrap working work' t = some r := by
  unfold remember at h ⊢
  dsimp only at h ⊢
  split at h
  · exact h
  by_cases hk : key ∈ working
  · rw [if_pos hk] at h ⊢
    exact h
  · rw [if_neg hk] at h ⊢
    obtain ⟨at₁, ha, hr⟩ := Option.bind_eq_some_iff.1 h
    exact Option.bind_eq_some_iff.2 ⟨at₁, hw _ _ _ ha, hr⟩

end Remember

/-! ## Deeper runs -/

theorem run_mono {f g : (q : Query) → Work q.Answer} (h : ∀ q t r, f q t = some r → g q t = some r)
    {p : Plan α} {r : α × Table} (hp : p.run f t = some r) : p.run g t = some r := by
  induction p generalizing t with
  | done a => exact hp
  | ask q next ih =>
    obtain ⟨a, t₁, hq, hn⟩ := run_ask_some.1 hp
    exact run_ask_some.2 ⟨a, t₁, h q t _ hq, ih a hn⟩

theorem work_mono {f g : List Key → (q : Query) → Work q.Answer}
    (h : ∀ ks q t r, f ks q t = some r → g ks q t = some r) {working : List Key} {m : Method α}
    {r : α × Table} (hm : m.work f working t = some r) : m.work g working t = some r := by
  obtain ⟨a, t'⟩ := r
  cases m with
  | known b reads => exact hm
  | plan p => exact run_mono (h working) hm
  | framed p =>
    obtain ⟨bt, hp, hr⟩ := Option.bind_eq_some_iff.1 hm
    exact Option.bind_eq_some_iff.2 ⟨bt, run_mono (h working) hp, hr⟩
  | remembered early slot p view =>
    obtain ⟨b, hb, hv⟩ := map_some.1 hm
    exact map_some.2 ⟨b, remember_mono (fun ks t r hr => run_mono (h ks) hr) hb, hv⟩

variable {e : Engine}

theorem answer_mono {d d' : Nat} (hd : d ≤ d') {working : List Key} {q : Query}
    {r : q.Answer × Table} (h : e.answer d working q t = some r) :
    e.answer d' working q t = some r := by
  induction d generalizing d' working q t with
  | zero => cases h
  | succ d ih =>
    obtain ⟨d', rfl⟩ : ∃ k, d' = k + 1 := ⟨d' - 1, by omega⟩
    rw [answer_succ] at h ⊢
    exact work_mono (fun ks q t r => ih (by omega)) h

/-! ## Searching for an answer -/

/-- A search finds what is found at some depth. -/
theorem search_eq_some {d : Nat} {q : Query} {r : q.Answer × Table} :
    e.search d q t = some r ↔ ∃ k, e.answer k [] q t = some r := by
  constructor
  · intro h
    refine search.partial_correctness e q t (fun _ r => ∃ k, e.answer k [] q t = some r) ?_ d r h
    intro search ih depth r h
    dsimp only at h
    split at h
    · exact ⟨depth, h⟩
    · exact ih _ _ h
  · rintro ⟨k, hk⟩
    induction hn : k - d using Nat.strongRecOn generalizing d with
    | ind n ih =>
      rw [search]
      cases ha : e.answer d [] q t with
      | some r' =>
        rw [if_pos Option.isSome_some]
        exact (answer_mono (Nat.le_max_left d k) ha).symm.trans
          (answer_mono (Nat.le_max_right d k) hk)
      | none =>
        have hlt : d < k := by
          refine Nat.lt_of_not_le fun hle => ?_
          rw [answer_mono hle hk] at ha
          cases ha
        rw [if_neg (by simp)]
        exact ih (k - (2 * d + 1)) (by omega) rfl

/-- What is found at some depth is the answer. -/
theorem ask_eq {d : Nat} {q : Query} {r : q.Answer × Table} (h : e.answer d [] q t = some r) :
    e.ask q t = r := by
  unfold ask
  rw [search_eq_some.2 ⟨d, h⟩]
  rfl

/-- What asking a question comes to. -/
theorem ask_cases (e : Engine) (q : Query) (t : Table) :
    (∃ k, e.answer k [] q t = some (e.ask q t)) ∨
      (∀ k, e.answer k [] q t = none) ∧ e.ask q t = (q.silence, t) := by
  cases hs : e.search (depth e.graph) q t with
  | some r =>
    obtain ⟨k, hk⟩ := search_eq_some.1 hs
    exact .inl ⟨k, by rw [ask_eq hk, hk]⟩
  | none =>
    refine .inr ⟨fun k => ?_, by rw [ask, hs]; rfl⟩
    cases hk : e.answer k [] q t with
    | none => rfl
    | some r =>
      rw [search_eq_some.2 ⟨k, hk⟩] at hs
      cases hs

/-- A plan is carried out as at any depth that is enough for all its questions. -/
theorem perform_eq {d : Nat} {p : Plan α} {r : α × Table}
    (h : p.run (e.answer d []) t = some r) : e.perform p t = r := by
  obtain ⟨b, t'⟩ := r
  induction p generalizing t with
  | done a => exact Option.some.inj h
  | ask q next ih =>
    obtain ⟨a, t₁, hq, hn⟩ := run_ask_some.1 h
    change e.perform (next (e.ask q t).1) (e.ask q t).2 = _
    rw [ask_eq hq]
    exact ih a hn

/-- What is seen of a run that is deep enough is seen of the plan carried out. -/
theorem map_perform_eq {d : Nat} {p : Plan α} (f : α × Table → β) {b : β}
    (h : (p.run (e.answer d []) t).map f = some b) : f (e.perform p t) = b := by
  obtain ⟨r, hr, rfl⟩ := Option.map_eq_some_iff.1 h
  rw [perform_eq hr]

theorem perform_map_eq {d : Nat} {p : Plan α} (f : α → β) {b : β}
    (h : (p.run (e.answer d []) t).map (fun r => f r.1) = some b) : f (e.perform p t).1 = b :=
  map_perform_eq (fun r => f r.1) h

theorem perform_fst_eq {d : Nat} {p : Plan α} {a : α}
    (h : (p.run (e.answer d []) t).map Prod.fst = some a) : (e.perform p t).1 = a :=
  perform_map_eq id h

end Dataflow.Engine
