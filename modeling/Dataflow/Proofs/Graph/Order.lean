import Mathlib.Data.List.Perm.Subperm
import Mathlib.Logic.Relation
import Dataflow.Graph.Order
import Dataflow.Proofs.Graph.WellFormed

/-! Sorting the nodes of a graph.

While a walk goes on, the nodes that were met but are not done with lead to the node it is at
(`Walk.Pending`). So when a node is done with, each node that it feeds is done with before it or
leads back to it (`Settled`). If then the list of all nodes is no order, the node that shows it is
on a cycle (`topologicalOrder_error`); and if it is one, there is no cycle (`topologicalOrder_ok`).
-/

namespace Dataflow.Graph

open Relation (ReflTransGen TransGen)

variable {es : List Edge} {back : NodeId → NodeId → Prop} {v s a b p n : NodeId}
  {vs pre post : List NodeId} {w w' w'' : Walk} {depth : Nat}

/-! ## Folds that may fail -/

section Fold

variable {α β ε : Type} {f : β → α → Except ε β} {as : List α} {b b' : β} {e : ε}

/-- If each step keeps an invariant, brings something about for its element and undoes nothing of
that for the others, then in the end the invariant holds, and all has been brought about. -/
theorem of_foldlM_ok {I : β → Prop} {Q : α → β → Prop}
    (step : ∀ {b a b'}, a ∈ as → I b → f b a = .ok b' → I b' ∧ Q a b' ∧ ∀ x, Q x b → Q x b')
    (hb : I b) (h : as.foldlM f b = .ok b') :
    I b' ∧ (∀ a ∈ as, Q a b') ∧ ∀ x, Q x b → Q x b' := by
  induction as generalizing b with
  | nil =>
    cases h
    exact ⟨hb, by simp, fun _ hx => hx⟩
  | cons a as ih =>
    rw [List.foldlM_cons] at h
    obtain ⟨b₁, ha, h⟩ := bind_ok h
    obtain ⟨hb₁, hQ, hkeep⟩ := step List.mem_cons_self hb ha
    obtain ⟨hb', hall, hkept⟩ := ih (fun hx => step (.tail a hx)) hb₁ h
    exact ⟨hb', List.forall_mem_cons.2 ⟨hkept a hQ, hall⟩, fun x hx => hkept x (hkeep x hx)⟩

theorem exists_of_foldlM_error (h : as.foldlM f b = .error e) :
    ∃ a ∈ as, ∃ b, f b a = .error e := by
  induction as generalizing b with
  | nil => cases h
  | cons a as ih =>
    rw [List.foldlM_cons] at h
    rcases bind_error h with h | ⟨b₁, -, h⟩
    · exact ⟨a, List.mem_cons_self, b, h⟩
    · obtain ⟨x, hx, h⟩ := ih h
      exact ⟨x, .tail a hx, h⟩

end Fold

/-! ## Edges -/

/-- An edge leads from one node to the other. -/
def Leads (es : List Edge) (a b : NodeId) : Prop := (a, b) ∈ es

theorem mem_successors : b ∈ successors es a ↔ Leads es a b := by
  simp [successors, Leads]

theorem mem_predecessors : a ∈ predecessors es b ↔ Leads es a b := by
  simp [predecessors, Leads]

/-! ## Settled lists -/

/-- The edges of each node of the list lead on to later nodes, or to such as are on the way back. -/
def Settled (es : List Edge) (back : NodeId → NodeId → Prop) : List NodeId → Prop
  | [] => True
  | v :: vs => (∀ s, Leads es v s → s ∈ vs ∨ back s v) ∧ Settled es back vs

theorem Settled.later (h : Settled es back (pre ++ v :: post)) (hs : Leads es v s) :
    s ∈ post ∨ back s v := by
  induction pre with
  | nil => exact h.1 s hs
  | cons u pre ih => exact ih h.2

/-! ## Walks -/

/-- A walk has gone on: nothing is lost, all that was met on the way is done with, and what had been
met before is left as it was. -/
structure Walk.Onward (w w' : Walk) : Prop where
  met : ∀ x ∈ w.met, x ∈ w'.met
  done : ∀ x ∈ w.done, x ∈ w'.done
  fresh : ∀ x ∈ w'.met, x ∈ w.met ∨ x ∈ w'.done
  late : ∀ x ∈ w'.done, x ∈ w.done ∨ x ∉ w.met

theorem Walk.Onward.refl (w : Walk) : w.Onward w :=
  ⟨fun _ h => h, fun _ h => h, fun _ h => .inl h, fun _ h => .inl h⟩

theorem Walk.Onward.trans (h : w.Onward w') (h' : w'.Onward w'') : w.Onward w'' where
  met x hx := h'.met x (h.met x hx)
  done x hx := h'.done x (h.done x hx)
  fresh x hx := (h'.fresh x hx).elim (fun hx => (h.fresh x hx).imp_right (h'.done x)) .inr
  late x hx := (h'.late x hx).elim (h.late x) fun hx => .inr (mt (h.met x) hx)

theorem foldlM_onward {f : Walk → NodeId → Except NodeId Walk}
    (hf : ∀ {w v w'}, f w v = .ok w' → Walk.Onward w w') (h : vs.foldlM f w = .ok w') :
    w.Onward w' :=
  (of_foldlM_ok (I := w.Onward) (Q := fun _ _ => True)
    (fun _ hw h => ⟨hw.trans (hf h), trivial, fun _ h => h⟩) (.refl w) h).1

/-- A walk from a node that was not met yet goes on to its successors, and is then done with it. -/
theorem walk_cases (h : walk es (depth + 1) v w = .ok w') :
    v ∈ w.met ∧ w' = w ∨
      v ∉ w.met ∧ v ∉ successors es v ∧ ∃ ahead w₁,
        (∀ s, s ∈ ahead ↔ s ∈ successors es v ∧ s ∉ v :: w.met) ∧
        List.foldlM (fun w s => walk es depth s w) { w with met := v :: w.met } ahead = .ok w₁ ∧
        w' = { w₁ with done := v :: w₁.done } := by
  rw [walk] at h
  split at h
  · exact .inl ⟨‹_›, (Except.ok.inj h).symm⟩
  split at h
  · cases h
  · obtain ⟨w₁, hw, h⟩ := bind_ok h
    refine .inr ⟨‹_›, ‹_›, _, w₁, fun s => ?_, hw, (Except.ok.inj h).symm⟩
    simp

theorem walk_onward (h : walk es depth v w = .ok w') : w.Onward w' := by
  induction depth generalizing v w w' with
  | zero =>
    cases h
    exact .refl w
  | succ depth ih =>
    rcases walk_cases h with ⟨-, rfl⟩ | ⟨hv, -, ahead, w₁, -, hw, rfl⟩
    · exact .refl w'
    have hw := foldlM_onward ih hw
    refine ⟨fun x hx => hw.met x (.tail v hx), fun x hx => .tail v (hw.done x hx), fun x hx => ?_,
      fun x hx => ?_⟩
    · rcases hw.fresh x hx with hx | hx
      · rcases List.mem_cons.1 hx with rfl | hx
        · exact .inr List.mem_cons_self
        · exact .inl hx
      · exact .inr (.tail v hx)
    · rcases List.mem_cons.1 hx with rfl | hx
      · exact .inr hv
      · exact (hw.late x hx).imp_right (mt (List.mem_cons_of_mem v))

/-- What was met are nodes of the list, each once, and what is done with is settled. -/
structure Walk.Sound (es : List Edge) (vs : List NodeId) (w : Walk) : Prop where
  nodup_met : w.met.Nodup
  met_subset : w.met ⊆ vs
  nodup_done : w.done.Nodup
  done_subset : w.done ⊆ w.met
  loopless : ∀ v ∈ w.done, ¬Leads es v v
  settled : Settled es (ReflTransGen (Leads es)) w.done

theorem Walk.Sound.meet (h : w.Sound es vs) (hv : v ∈ vs) (hm : v ∉ w.met) :
    Walk.Sound es vs { w with met := v :: w.met } where
  nodup_met := h.nodup_met.cons hm
  met_subset := List.cons_subset.2 ⟨hv, h.met_subset⟩
  nodup_done := h.nodup_done
  done_subset := List.subset_cons_of_subset v h.done_subset
  loopless := h.loopless
  settled := h.settled

/-- All that was met but is not done with leads to the node. -/
def Walk.Pending (es : List Edge) (w : Walk) (v : NodeId) : Prop :=
  ∀ x ∈ w.met, x ∈ w.done ∨ ReflTransGen (Leads es) x v

theorem Walk.Pending.onward (h : w.Pending es v) (ho : w.Onward w') : w'.Pending es v := by
  intro x hx
  rcases ho.fresh x hx with hx | hx
  · exact (h x hx).imp_left (ho.done x)
  · exact .inl hx

theorem Walk.Pending.tail (h : w.Pending es v) (hs : Leads es v s) : w.Pending es s :=
  fun x hx => (h x hx).imp_right (·.tail hs)

theorem Walk.Pending.meet (h : w.Pending es v) :
    Walk.Pending es { w with met := v :: w.met } v :=
  List.forall_mem_cons.2 ⟨.inr .refl, h⟩

/-- A node is settled once all the nodes that it feeds have been met. -/
theorem Walk.Sound.finish (h : w.Sound es vs) (hv : v ∈ w.met) (hd : v ∉ w.done)
    (hpending : w.Pending es v) (hloop : ¬Leads es v v) (hmet : ∀ s, Leads es v s → s ∈ w.met) :
    Walk.Sound es vs { w with done := v :: w.done } where
  nodup_met := h.nodup_met
  met_subset := h.met_subset
  nodup_done := h.nodup_done.cons hd
  done_subset := List.cons_subset.2 ⟨hv, h.done_subset⟩
  loopless := List.forall_mem_cons.2 ⟨hloop, h.loopless⟩
  settled := ⟨fun s hs => hpending s (hmet s hs), h.settled⟩

/-- A walk can start at the node, and is as deep as there are nodes still to be met. -/
structure Walk.Ready (es : List Edge) (vs : List NodeId) (depth : Nat) (v : NodeId) (w : Walk) :
    Prop where
  sound : w.Sound es vs
  mem : v ∈ vs
  length_le : vs.length ≤ depth + w.met.length
  pending : w.Pending es v

/-- A walk without depth has no node left that was not met. -/
theorem Walk.Ready.mem_met (h : w.Ready es vs 0 v) : v ∈ w.met := by
  have hle := h.length_le
  rw [Nat.zero_add] at hle
  exact ((h.sound.nodup_met.subperm h.sound.met_subset).perm_of_length_le hle).mem_iff.2 h.mem

/-- Once a node is met, the walk can go on to any node that it feeds. -/
theorem Walk.Ready.ahead (h : w.Ready es vs (depth + 1) v) (hes : ∀ a b, Leads es a b → b ∈ vs)
    (hm : v ∉ w.met) (hs : Leads es v s) (hw' : w'.Sound es vs)
    (ho : Walk.Onward { w with met := v :: w.met } w') : w'.Ready es vs depth s where
  sound := hw'
  mem := hes v s hs
  length_le := by
    have hmet := ((h.sound.meet h.mem hm).nodup_met.subperm ho.met).length_le
    have hle := h.length_le
    rw [List.length_cons] at hmet
    omega
  pending := (h.pending.meet.onward ho).tail hs

theorem walk_sound (hes : ∀ a b, Leads es a b → b ∈ vs) (hw : w.Ready es vs depth v)
    (h : walk es depth v w = .ok w') : w'.Sound es vs ∧ v ∈ w'.met := by
  induction depth generalizing v w w' with
  | zero =>
    cases h
    exact ⟨hw.sound, hw.mem_met⟩
  | succ depth ih =>
    rcases walk_cases h with ⟨hm, rfl⟩ | ⟨hm, hloop, ahead, w₁, hahead, hfold, rfl⟩
    · exact ⟨hw.sound, hm⟩
    set w₀ : Walk := { w with met := v :: w.met }
    have hw₀ : w₀.Sound es vs := hw.sound.meet hw.mem hm
    obtain ⟨⟨hw₁, ho⟩, hmet, -⟩ := of_foldlM_ok
      (I := fun u => u.Sound es vs ∧ w₀.Onward u) (Q := fun s u => s ∈ u.met)
      (fun {u s u'} hs ⟨hu, ho⟩ hstep => by
        have hs := mem_successors.1 ((hahead s).1 hs).1
        obtain ⟨hu', hmet⟩ := ih (hw.ahead hes hm hs hu ho) hstep
        exact ⟨⟨hu', ho.trans (walk_onward hstep)⟩, hmet, (walk_onward hstep).met⟩)
      ⟨hw₀, .refl w₀⟩ hfold
    have hv₁ : v ∈ w₁.met := ho.met v List.mem_cons_self
    refine ⟨hw₁.finish hv₁ ?_ (hw.pending.meet.onward ho) (mt mem_successors.2 hloop) ?_, hv₁⟩
    · intro hd
      rcases ho.late v hd with hd | hd
      · exact hm (hw.sound.done_subset hd)
      · exact hd List.mem_cons_self
    · intro s hs
      by_cases hs₀ : s ∈ w₀.met
      · exact ho.met s hs₀
      · exact hmet s ((hahead s).2 ⟨mem_successors.2 hs, hs₀⟩)

/-- Between walks from one node and the next, all that was met is done with. -/
structure Walk.Settles (es : List Edge) (vs : List NodeId) (w : Walk) : Prop where
  sound : w.Sound es vs
  all_done : ∀ x ∈ w.met, x ∈ w.done

theorem Walk.settles_nil (es : List Edge) (vs : List NodeId) : Walk.Settles es vs ⟨[], []⟩ :=
  ⟨⟨.nil, List.nil_subset _, .nil, List.nil_subset _, by simp, trivial⟩, by simp⟩

theorem Walk.Settles.ready (h : w.Settles es vs) (hv : v ∈ vs) : w.Ready es vs vs.length v :=
  ⟨h.sound, hv, Nat.le_add_right _ _, fun x hx => .inl (h.all_done x hx)⟩

theorem Walk.Settles.walk (h : w.Settles es vs) (hes : ∀ a b, Leads es a b → b ∈ vs) (hv : v ∈ vs)
    (hw : walk es vs.length v w = .ok w') : w'.Settles es vs ∧ v ∈ w'.met := by
  obtain ⟨hw', hmet⟩ := walk_sound hes (h.ready hv) hw
  have ho := walk_onward hw
  exact ⟨⟨hw', fun x hx => (ho.fresh x hx).elim (ho.done x ∘ h.all_done x) id⟩, hmet⟩

/-- Walks from all nodes, one after the other, settle all nodes: each walk leaves `Walk.Settles` as
it was, and its node met. -/
theorem walks_settle (hes : ∀ a b, Leads es a b → b ∈ vs)
    (h : vs.foldlM (fun w v => walk es vs.length v w) ⟨[], []⟩ = .ok w) :
    w.Sound es vs ∧ ∀ v, v ∈ w.done ↔ v ∈ vs := by
  obtain ⟨hw, hmet, -⟩ := of_foldlM_ok
    (I := Walk.Settles es vs) (Q := fun v w => v ∈ w.met)
    (fun hv hu hstep =>
      have ⟨hu', hmet⟩ := hu.walk hes hv hstep
      ⟨hu', hmet, (walk_onward hstep).met⟩)
    (Walk.settles_nil es vs) h
  exact ⟨hw.sound, fun v => ⟨fun hv => hw.sound.met_subset (hw.sound.done_subset hv),
    fun hv => hw.all_done v (hmet v hv)⟩⟩

/-- Only a node that feeds itself ends a walk. -/
theorem walk_error (h : walk es depth v w = .error n) : Leads es n n := by
  induction depth generalizing v w with
  | zero => cases h
  | succ depth ih =>
    rw [walk] at h
    split at h
    · cases h
    split at h
    next hloop =>
      cases h
      exact mem_successors.1 hloop
    · rcases bind_error h with h | ⟨w₁, -, h⟩
      · obtain ⟨s, -, w₁, hs⟩ := exists_of_foldlM_error h
        exact ih hs
      · cases h

/-! ## Orders -/

variable {earlier order : List NodeId} {g : Graph}

theorem of_backward?_eq_some (h : backward? es earlier vs = some p) :
    ∃ pre v post, vs = pre ++ v :: post ∧ Leads es p v ∧ p ≠ v ∧ p ∉ earlier ∧ p ∉ pre := by
  induction vs generalizing earlier with
  | nil => cases h
  | cons v vs ih =>
    rw [backward?] at h
    split at h
    next q hq =>
      cases h
      obtain ⟨hp, hne⟩ := List.mem_filter.1 (List.mem_of_getLast? hq)
      obtain ⟨hne, hearlier⟩ := of_decide_eq_true hne
      exact ⟨[], v, vs, rfl, mem_predecessors.1 hp, hne, hearlier, List.not_mem_nil⟩
    next =>
      obtain ⟨pre, u, post, rfl, hp, hne, hearlier, hpre⟩ := ih h
      rw [List.mem_cons, not_or] at hearlier
      exact ⟨v :: pre, u, post, rfl, hp, hne, hearlier.2, by simp [hearlier.1, hpre]⟩

theorem of_backward?_eq_none (h : backward? es earlier (pre ++ v :: post) = none)
    (hp : Leads es p v) : p = v ∨ p ∈ earlier ∨ p ∈ pre := by
  induction pre generalizing earlier with
  | nil =>
    rw [List.nil_append, backward?] at h
    split at h
    · cases h
    next hlast =>
      have hnil := List.filter_eq_nil_iff.1 (List.getLast?_eq_none_iff.1 hlast) p
        (mem_predecessors.2 hp)
      grind
  | cons u pre ih =>
    rw [List.cons_append, backward?] at h
    split at h
    · cases h
    · have := ih h
      grind

/-- A list that takes up others one by one, each once. -/
theorem mem_foldl_insert {α : Type} [BEq α] [LawfulBEq α] {a : α} {as bs : List α} :
    a ∈ as.foldl (fun bs b => if b ∈ bs then bs else bs ++ [b]) bs ↔ a ∈ bs ∨ a ∈ as := by
  induction as generalizing bs with
  | nil => simp
  | cons b as ih =>
    rw [List.foldl_cons, ih]
    split
    · grind
    · simp [or_assoc]

theorem leads_vertices (h : Leads g.edges a b) : a ∈ g.vertices ∧ b ∈ g.vertices := by
  have hmem {x : NodeId} (hx : x ∈ [a, b]) : x ∈ g.vertices :=
    mem_foldl_insert.2 (.inr (List.mem_flatMap.2 ⟨(a, b), h, hx⟩))
  exact ⟨hmem (by simp), hmem (by simp)⟩

/-- The outcome of sorting, from that of the walks. -/
theorem topologicalOrder_cases (g : Graph) :
    (∃ n, Leads g.edges n n ∧ g.topologicalOrder = .error n) ∨
      ∃ w : Walk, w.Sound g.edges g.vertices ∧ (∀ v, v ∈ w.done ↔ v ∈ g.vertices) ∧
        (backward? g.edges [] w.done = none ∧ g.topologicalOrder = .ok w.done ∨
          ∃ p, backward? g.edges [] w.done = some p ∧ g.topologicalOrder = .error p) := by
  rw [topologicalOrder]
  cases h : g.vertices.foldlM (fun w v => walk g.edges g.vertices.length v w) ⟨[], []⟩ with
  | error n =>
    obtain ⟨v, -, w, hw⟩ := exists_of_foldlM_error h
    exact .inl ⟨n, walk_error hw, rfl⟩
  | ok w =>
    obtain ⟨hw, hdone⟩ := walks_settle (fun a b hs => (leads_vertices hs).2) h
    refine .inr ⟨w, hw, hdone, ?_⟩
    cases hb : backward? g.edges [] w.done with
    | none => exact .inl ⟨rfl, by simp [bind, Except.bind, hb]⟩
    | some p => exact .inr ⟨p, rfl, by simp [bind, Except.bind, hb]⟩

theorem idxOf_lt_idxOf (h : (pre ++ b :: post).Nodup) (ha : a ∈ pre) :
    (pre ++ b :: post).idxOf a < (pre ++ b :: post).idxOf b := by
  have hb : b ∉ pre := fun hb => List.disjoint_of_nodup_append h hb List.mem_cons_self
  rw [List.idxOf_append_of_mem ha, List.idxOf_append_of_notMem hb, List.idxOf_cons_self]
  exact Nat.lt_add_right 0 (List.idxOf_lt_length_of_mem ha)

/-- An order holds all nodes once, and each edge leads to a later one: the nodes are settled, and
where `backward?` finds nothing none of them leads back. -/
theorem topologicalOrder_ok (h : g.topologicalOrder = .ok order) :
    order.Nodup ∧ (∀ v, v ∈ order ↔ v ∈ g.vertices) ∧
      ∀ a b, Leads g.edges a b → order.idxOf a < order.idxOf b := by
  rcases g.topologicalOrder_cases with ⟨n, -, hn⟩ | ⟨w, hw, hdone, ⟨hb, hn⟩ | ⟨p, -, hn⟩⟩
  · cases hn.symm.trans h
  · cases hn.symm.trans h
    refine ⟨hw.nodup_done, hdone, fun a b hab => ?_⟩
    obtain ⟨pre, post, hsplit⟩ := List.append_of_mem ((hdone b).2 (leads_vertices hab).2)
    rw [hsplit] at hb
    rcases of_backward?_eq_none hb hab with rfl | ha | ha
    · exact absurd hab (hw.loopless a ((hdone a).2 (leads_vertices hab).1))
    · cases ha
    · have hnodup := hw.nodup_done
      rw [hsplit] at hnodup ⊢
      exact idxOf_lt_idxOf hnodup ha
  · cases hn.symm.trans h

/-- The node that sorting ends with is on a cycle: it feeds itself (`walk_error`), or it feeds a
node that stands before it in the list, and this one leads back to it as all nodes are settled. -/
theorem topologicalOrder_error (h : g.topologicalOrder = .error n) :
    TransGen (Leads g.edges) n n := by
  rcases g.topologicalOrder_cases with ⟨n, hs, hn⟩ | ⟨w, hw, hdone, ⟨-, hn⟩ | ⟨p, hb, hn⟩⟩
  · cases hn.symm.trans h
    exact .single hs
  · cases hn.symm.trans h
  · cases hn.symm.trans h
    obtain ⟨pre, v, post, hsplit, hs, hne, -, hpre⟩ := of_backward?_eq_some hb
    have hmem : n ∈ pre ++ v :: post := hsplit ▸ (hdone n).2 (leads_vertices hs).1
    have hpost : n ∈ post := by
      simpa [hpre, hne] using hmem
    -- `v` comes before `n`, so the edge from `n` to it leads back
    obtain ⟨mid, last, rfl⟩ := List.append_of_mem hpost
    have hsettled := hw.settled
    have hnodup := hw.nodup_done
    rw [hsplit] at hsettled hnodup
    have hv : v ∉ last := by
      grind
    rw [← List.cons_append, ← List.append_assoc] at hsettled
    exact .head' hs ((hsettled.later hs).resolve_left hv)

/-- There is an order exactly if there is no cycle, by `topologicalOrder_ok` and
`topologicalOrder_error`. -/
theorem exists_topologicalOrder_iff :
    (∃ order, g.topologicalOrder = .ok order) ↔ ∀ a, ¬TransGen (Leads g.edges) a a := by
  constructor
  · rintro ⟨order, h⟩ a hc
    have hlt := hc.lift order.idxOf (topologicalOrder_ok h).2.2
    rw [Relation.transGen_eq_self] at hlt
    exact Nat.lt_irrefl _ hlt
  · intro hacyclic
    cases h : g.topologicalOrder with
    | ok order => exact ⟨order, rfl⟩
    | error n => exact absurd (topologicalOrder_error h) (hacyclic n)

/-- Every node of the graph has a place in the order. -/
theorem WellFormed.mem_order (hg : g.WellFormed) (h : g.topologicalOrder = .ok order) {n : Node}
    (hn : g.node? v = some n) : v ∈ order := by
  refine ((topologicalOrder_ok h).2.1 v).2 (mem_foldl_insert.2 (.inl ?_))
  exact List.mem_map.2 ⟨n, Tables.mem_values.2 ⟨v, hn⟩, hg.node_id hn⟩

end Dataflow.Graph
