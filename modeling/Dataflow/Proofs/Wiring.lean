import Dataflow.Wiring

/-! What the verdict on two ports says about the graph, whatever the questions are answered: how
`Wire.check` may end well (`check_ok`), and how it comes to refuse a cycle (`check_cycle`). -/

namespace Dataflow

variable {σ α β ε : Type} {ask : (q : Query) → StateM σ q.Answer} {s : σ}

namespace Plan

theorem run_bind_fst (p : Plan α) (f : α → Plan β) :
    ((p >>= f).run ask s).1 = ((f (p.run ask s).1).run ask (p.run ask s).2).1 := by
  rw [run_bind]
  rfl

/-- A plan that may fail succeeds if both its parts do. -/
theorem run_bind_ok {x : ExceptT ε Plan α} {f : α → ExceptT ε Plan β} {b : β}
    (h : (Plan.run ask (x >>= f).run s).1 = .ok b) :
    ∃ a s', (Plan.run ask x.run s).1 = .ok a ∧ (Plan.run ask (f a).run s').1 = .ok b := by
  rw [ExceptT.run_bind, run_bind_fst] at h
  cases hx : (Plan.run ask x.run s).1 with
  | error r =>
    rw [hx] at h
    cases h
  | ok a =>
    rw [hx] at h
    exact ⟨a, _, rfl, h⟩

/-- A plan that may fail fails with its first part or else with its second. -/
theorem run_bind_error {x : ExceptT ε Plan α} {f : α → ExceptT ε Plan β} {r : ε}
    (h : (Plan.run ask (x >>= f).run s).1 = .error r) :
    (Plan.run ask x.run s).1 = .error r ∨
      ∃ a s', (Plan.run ask x.run s).1 = .ok a ∧ (Plan.run ask (f a).run s').1 = .error r := by
  rw [ExceptT.run_bind, run_bind_fst] at h
  cases hx : (Plan.run ask x.run s).1 with
  | error r' =>
    rw [hx] at h
    cases h
    exact .inl rfl
  | ok a =>
    rw [hx] at h
    exact .inr ⟨a, _, rfl, h⟩

/-- The plan does not fail in this way, whatever the answers are. -/
def Never (ask : (q : Query) → StateM σ q.Answer) (r : ε) (x : ExceptT ε Plan α) : Prop :=
  ∀ s, (Plan.run ask x.run s).1 ≠ .error r

variable {r r' : ε} {x : ExceptT ε Plan α} {f : α → ExceptT ε Plan β}

theorem Never.pure (a : α) : Never ask r (pure a) := fun _ h => by cases h

theorem Never.throw (h : r' ≠ r) : Never ask r (throw r' : ExceptT ε Plan α) := by
  intro s he
  cases he
  exact h rfl

theorem Never.bind (hx : Never ask r x)
    (hf : ∀ a, (∃ s, (Plan.run ask x.run s).1 = .ok a) → Never ask r (f a)) :
    Never ask r (x >>= f) := by
  intro s h
  rcases run_bind_error h with h | ⟨a, s', ha, h⟩
  · exact hx s h
  · exact hf a ⟨s, ha⟩ s' h

theorem run_lift (p : Plan α) :
    (Plan.run ask (liftM p : ExceptT ε Plan α).run s).1 = .ok (p.run ask s).1 := by
  have hp : (liftM p : ExceptT ε Plan α).run = p >>= fun a => Pure.pure (.ok a) :=
    (bind_pure_comp Except.ok p).symm
  rw [hp, run_bind_fst]
  rfl

theorem Never.lift (p : Plan α) : Never ask r (liftM p : ExceptT ε Plan α) := by
  intro s h
  rw [run_lift] at h
  cases h

end Plan

namespace Wire

variable {g : Graph} {p q : PortRef} {w : Wire}

theorem ofPorts_run {r : Except Rejection Wire}
    (h : (Plan.run ask (liftM (ofPorts p q) : ExceptT Rejection Plan Wire).run s).1 = r) :
    ofPorts p q = r := by
  rw [← h]
  cases ofPorts p q <;> rfl

/-- Ports that may be joined have no path back from the destination to the source, and the types
fit. -/
theorem check_ok (h : (Plan.run ask (check g p q).run s).1 = .ok w) :
    ofPorts p q = .ok w ∧ ¬(g.upstream [w.src.node]).contains w.dest.node ∧
      ∃ s, (Plan.run ask w.disagreement? s).1 = none := by
  unfold check at h
  obtain ⟨w', s, hw, h⟩ := Plan.run_bind_ok h
  obtain ⟨src, s, -, h⟩ := Plan.run_bind_ok h
  obtain ⟨dest, s, -, h⟩ := Plan.run_bind_ok h
  obtain ⟨_, s, -, h⟩ := Plan.run_bind_ok h
  split at h
  · obtain ⟨_, _, hc, -⟩ := Plan.run_bind_ok h
    cases hc
  obtain ⟨r, s, hr, h⟩ := Plan.run_bind_ok h
  rw [Plan.run_lift] at hr
  cases r with
  | some r => cases h
  | none =>
    cases h
    exact ⟨ofPorts_run hw, ‹_›, _, Except.ok.inj hr⟩

theorem ofPorts_ne_cycle : ofPorts p q ≠ .error .cycle := by
  unfold ofPorts
  repeat' split
  all_goals simp

theorem existing_ne_cycle : Plan.Never ask .cycle (existing p) := by
  refine .bind (.lift _) fun port _ => ?_
  cases port with
  | ok port => exact .pure port
  | error _ => exact .throw (by simp)

theorem vacant_ne_cycle (m : PortMode) (conns : Plan (List Connection))
    {next fail : ExceptT Rejection Plan Unit} (hn : Plan.Never ask .cycle next)
    (hf : Plan.Never ask .cycle fail) :
    Plan.Never ask .cycle
      (if m = .single then do
        let cs ← (conns : Plan _)
        if cs.isEmpty then next else fail
      else next) := by
  split
  · refine .bind (.lift _) fun cs _ => ?_
    split
    · exact hn
    · exact hf
  · exact hn

theorem checkCardinality_ne_cycle {m n : PortMode} :
    Plan.Never ask .cycle (w.checkCardinality m n) := by
  have done : Plan.Never ask .cycle (pure () : ExceptT Rejection Plan Unit) := .pure ()
  have refuse (c : Cardinality) : Plan.Never ask .cycle
      (throw (.cardinality c) : ExceptT Rejection Plan Unit) := .throw (by simp)
  have hsrc := vacant_ne_cycle m (Plan.connectionsFrom w.src.node w.src.key) done
    (refuse (.exhausted w.src))
  have hdest := vacant_ne_cycle n (Plan.connectionsInto w.dest.node w.dest.key) hsrc
    (.bind (refuse (.occupied w.dest)) fun (_ : Unit) _ => hsrc)
  unfold checkCardinality
  dsimp only
  split
  · exact .bind (.throw (by simp)) fun _ _ => hdest
  · exact hdest

theorem disagreement?_ne_cycle : (Plan.run ask w.disagreement? s).1 ≠ some .cycle := by
  unfold disagreement?
  rw [Plan.run_bind_fst, Plan.run_bind_fst]
  intro h
  split at h <;> cases h

/-- Only a path back from the destination is refused as a cycle. -/
theorem check_cycle (h : (Plan.run ask (check g p q).run s).1 = .error .cycle) :
    ∃ w, ofPorts p q = .ok w ∧ (g.upstream [w.src.node]).contains w.dest.node := by
  unfold check at h
  rcases Plan.run_bind_error h with h | ⟨w, s, hw, h⟩
  · exact absurd (ofPorts_run h) ofPorts_ne_cycle
  rcases Plan.run_bind_error h with h | ⟨src, s, -, h⟩
  · exact absurd h (existing_ne_cycle s)
  rcases Plan.run_bind_error h with h | ⟨dest, s, -, h⟩
  · exact absurd h (existing_ne_cycle s)
  rcases Plan.run_bind_error h with h | ⟨_, s, -, h⟩
  · exact absurd h (checkCardinality_ne_cycle s)
  by_cases hc : (g.upstream [w.src.node]).contains w.dest.node
  · exact ⟨w, ofPorts_run hw, hc⟩
  simp only [hc] at h
  refine absurd h (Plan.Never.bind (.lift _) (fun r hr => ?_) s)
  obtain ⟨s, hr⟩ := hr
  rw [Plan.run_lift] at hr
  cases r with
  | some r => exact .throw fun he => disagreement?_ne_cycle ((Except.ok.inj hr).trans (he ▸ rfl))
  | none => exact .pure w

end Wire

end Dataflow
