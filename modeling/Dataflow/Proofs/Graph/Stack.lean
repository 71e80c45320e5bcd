import Dataflow.Proofs.Graph.Order

/-! Walks with a stack.

A node stays on the stack while the nodes that it feeds are walked from, and is done with when it
comes up again (`unwind`). A node that was put there before it was met may come up a second time; it
is done with then, and nothing happens. So a stack leads to the same end as walks within walks, and
is empty at last (`exists_orderByStack`). -/

namespace Dataflow.Graph

/-- Takes nodes from the top of a stack. A node that was not met yet stays, with the nodes that it
feeds and that were not met on top of it, the one that was joined last highest. While the stack is
not empty there is no answer. -/
def unwind (es : List Edge) :
    (steps : Nat) → (stack : List NodeId) → Walk → Option (Except NodeId Walk)
  | _, [], w => some (.ok w)
  | 0, _ :: _, _ => none
  | steps + 1, v :: stack, w =>
    if v ∈ w.met then
      unwind es steps stack (if v ∈ w.done then w else { w with done := v :: w.done })
    else if v ∈ successors es v then some (.error v)
    else
      let ahead := (successors es v).filter (· ∉ v :: w.met)
      unwind es steps (ahead.reverse ++ v :: stack) { w with met := v :: w.met }

variable {es : List Edge} {v : NodeId} {vs top rest : List NodeId} {w : Walk} {depth : Nat}
  {r : Except NodeId Walk}

/-! ## What the top of a stack leads to -/

/-- In some steps the nodes on top are gone, and the state is that of the result; or, if the result
is a failure, so is what the stack leads to. -/
def Unwinds (es : List Edge) (top : List NodeId) (w : Walk) (r : Except NodeId Walk) : Prop :=
  ∃ k, ∀ steps stack, unwind es (k + steps) (top ++ stack) w =
    match r with
    | .ok w' => unwind es steps stack w'
    | .error n => some (.error n)

theorem Unwinds.nil (es : List Edge) (w : Walk) : Unwinds es [] w (.ok w) :=
  ⟨0, fun steps stack => by rw [Nat.zero_add, List.nil_append]⟩

theorem Unwinds.append {f : Walk → Except NodeId Walk} (htop : Unwinds es top w r)
    (hrest : ∀ w', r = .ok w' → Unwinds es rest w' (f w')) :
    Unwinds es (top ++ rest) w (r >>= f) := by
  obtain ⟨k, hk⟩ := htop
  cases r with
  | error n =>
    refine ⟨k, fun steps stack => ?_⟩
    rw [List.append_assoc, hk]
    rfl
  | ok w' =>
    obtain ⟨k', hk'⟩ := hrest w' rfl
    refine ⟨k + k', fun steps stack => ?_⟩
    rw [List.append_assoc, Nat.add_assoc, hk]
    exact hk' steps stack

/-- A node that comes up again is done with then, if it was not before. -/
theorem unwinds_met (hm : v ∈ w.met) :
    Unwinds es [v] w (.ok (if v ∈ w.done then w else { w with done := v :: w.done })) :=
  ⟨1, fun steps stack => by
    rw [Nat.add_comm, List.singleton_append, unwind, if_pos hm]⟩

theorem unwinds_done (hm : v ∈ w.met) (hd : v ∈ w.done) : Unwinds es [v] w (.ok w) := by
  have h : Unwinds es [v] w _ := unwinds_met hm
  rwa [if_pos hd] at h

theorem unwinds_loop (hm : v ∉ w.met) (hloop : v ∈ successors es v) :
    Unwinds es [v] w (.error v) :=
  ⟨1, fun steps stack => by
    rw [Nat.add_comm, List.singleton_append, unwind, if_neg hm, if_pos hloop]⟩

/-- A node that comes up for the first time stays below those that it feeds. -/
theorem unwinds_fresh (hm : v ∉ w.met) (hloop : v ∉ successors es v)
    (h : Unwinds es (((successors es v).filter fun s => s ≠ v ∧ s ∉ w.met).reverse ++ [v])
      { w with met := v :: w.met } r) : Unwinds es [v] w r := by
  obtain ⟨k, hk⟩ := h
  refine ⟨k + 1, fun steps stack => ?_⟩
  rw [Nat.add_right_comm, List.singleton_append, unwind, if_neg hm, if_neg hloop, ← hk steps stack,
    List.append_assoc]
  simp only [List.mem_cons, not_or, List.singleton_append]

/-! ## Walks -/

theorem unwinds_foldlM {f : Walk → NodeId → Except NodeId Walk} {I : Walk → Prop}
    (step : ∀ {w v}, v ∈ vs → I w →
      Unwinds es [v] w (f w v) ∧ ∀ w', f w v = .ok w' → I w')
    (hw : I w) : Unwinds es vs w (vs.foldlM f w) := by
  induction vs generalizing w with
  | nil => exact .nil es w
  | cons v vs ih =>
    obtain ⟨hv, hkeep⟩ := step List.mem_cons_self hw
    rw [List.foldlM_cons, ← List.singleton_append]
    exact hv.append fun w' hw' => ih (fun hx => step (.tail v hx)) (hkeep w' hw')

/-- A node on top of the stack leads to the same as a walk from it. By induction on the depth of the
walk, with `unwinds_fresh` for a node that was not met yet. -/
theorem unwinds_walk (hes : ∀ a b, Leads es a b → b ∈ vs) (hw : w.Ready es vs depth v)
    (hdone : v ∈ w.met → v ∈ w.done) : Unwinds es [v] w (walk es depth v w) := by
  induction depth generalizing v w with
  | zero => exact unwinds_done hw.mem_met (hdone hw.mem_met)
  | succ depth ih =>
    rw [walk]
    split
    next hm => exact unwinds_done hm (hdone hm)
    next hm =>
    split
    next hloop => exact unwinds_loop hm hloop
    next hloop =>
    set w₀ : Walk := { w with met := v :: w.met }
    refine unwinds_fresh hm hloop (.append ?_ fun w₁ hw₁ => ?_)
    · refine unwinds_foldlM (I := fun u => u.Sound es vs ∧ w₀.Onward u)
        (fun {u s} hs hu => ?_) ⟨hw.sound.meet hw.mem hm, .refl w₀⟩
      rw [List.mem_reverse, List.mem_filter, decide_eq_true_eq] at hs
      obtain ⟨hs, hne, hs₀⟩ := hs
      obtain ⟨hu, ho⟩ := hu
      have hready := hw.ahead hes hm (mem_successors.1 hs) hu ho
      refine ⟨ih hready fun hmet => ?_, fun u' h => ?_⟩
      -- below it on the stack it was not met yet, so what met it is done with it
      · exact (ho.fresh s hmet).resolve_left (by simp [w₀, hne, hs₀])
      · exact ⟨(walk_sound hes hready h).1, ho.trans (walk_onward h)⟩
    · have ho : w₀.Onward w₁ := foldlM_onward walk_onward hw₁
      have hd : v ∉ w₁.done := fun hd =>
        (ho.late v hd).elim (fun hd => hm (hw.sound.done_subset hd)) fun hv => hv (.head _)
      have h : Unwinds es [v] w₁ _ := unwinds_met (ho.met v (.head _))
      rwa [if_neg hd] at h

/-! ## Orders -/

/-- Sorts the nodes with a stack on which all of them are at first. -/
def orderByStack (g : Graph) (steps : Nat) : Option (Except NodeId (List NodeId)) :=
  (unwind g.edges steps g.vertices ⟨[], []⟩).map fun r => do
    let w ← r
    match backward? g.edges [] w.done with
    | some p => .error p
    | none => .ok w.done

/-- With a stack, sorting comes to an end, and to the same end, since `unwinds_walk` holds of each
of the nodes on it. -/
theorem exists_orderByStack (g : Graph) :
    ∃ steps, g.orderByStack steps = some g.topologicalOrder := by
  have hes (a b : NodeId) (hs : Leads g.edges a b) : b ∈ g.vertices := (leads_vertices hs).2
  have hwalks : Unwinds g.edges g.vertices ⟨[], []⟩
      (g.vertices.foldlM (fun w v => walk g.edges g.vertices.length v w) ⟨[], []⟩) :=
    unwinds_foldlM (I := Walk.Settles g.edges g.vertices)
      (fun hv hw =>
        ⟨unwinds_walk hes (hw.ready hv) (hw.all_done _), fun w' h => (hw.walk hes hv h).1⟩)
      (Walk.settles_nil g.edges g.vertices)
  obtain ⟨k, hk⟩ := hwalks
  have hend := hk 0 []
  rw [List.append_nil, Nat.add_zero] at hend
  refine ⟨k, ?_⟩
  rw [orderByStack, hend, topologicalOrder]
  cases g.vertices.foldlM (fun w v => walk g.edges g.vertices.length v w) ⟨[], []⟩ with
  | error n => rfl
  | ok w => rfl

end Dataflow.Graph
