import Dataflow.Proofs.Graph.Cardinality

/-! The ports that a node shows, and the connections that stand at each of them.

As long as a node declares every key but once for each role (`Unrepeated`), a reference names one of
its ports at most (`eq_of_isNamed`). A row of duplicates, the ports of a group of mode
`PortMode.duplicate`, shows the slots that connections end at and the least one that none does
(`IsLeastFree`), which is where the next connection goes. -/

namespace Dataflow

/-- Every key is declared at most once for each role. -/
def Unrepeated (ports : List PortSpec) : Prop := (ports.map fun s => (s.role, s.key)).Nodup

instance (ports : List PortSpec) : Decidable (Unrepeated ports) :=
  inferInstanceAs (Decidable (List.Nodup _))

theorem Unrepeated.eq {ports : List PortSpec} (h : Unrepeated ports) {s t : PortSpec}
    (hs : s ∈ ports) (ht : t ∈ ports) (hr : s.role = t.role) (hk : s.key = t.key) : s = t :=
  List.inj_on_of_nodup_map h hs ht (Prod.ext hr hk)

theorem mem_of_lt_leastFree {taken : List Nat} {k : Nat} (h : k < leastFree taken) : k ∈ taken := by
  unfold leastFree at h
  cases hf : (List.range (taken.length + 1)).find? fun s => !taken.contains s with
  | none =>
    rw [hf] at h
    exact absurd h (Nat.not_lt_zero k)
  | some s =>
    rw [hf] at h
    simpa using (List.find?_range_eq_some.1 hf).2.2 k h

namespace Graph

variable {g : Graph} {n : Node} {id : NodeId} {s t : PortSpec} {p : PortRef} {q q' : Port}
  {c : Connection} {k : ConnectionId} {slot : Nat}

/-! ## Slots -/

/-- A connection ends at the slot of the group that the reference names. -/
def Occupied (g : Graph) (p : PortRef) (slot : Nat) : Prop :=
  ∃ c ∈ g.connectionList, c.dest = { p with slot }

/-- The least slot of the group that no connection ends at. -/
def IsLeastFree (g : Graph) (p : PortRef) (slot : Nat) : Prop :=
  ¬g.Occupied p slot ∧ ∀ lower < slot, g.Occupied p lower

theorem WellFormed.mem_takenSlots_iff (hg : g.WellFormed) :
    slot ∈ g.takenSlots p ↔ g.Occupied p slot := by
  constructor
  · intro h
    obtain ⟨c, hc, rfl⟩ := List.mem_map.1 h
    obtain ⟨hc, hr⟩ := List.mem_filter.1 hc
    obtain ⟨hc, hn, hk⟩ := hg.mem_connectionsInto.1 hc
    refine ⟨c, hg.mem_list hc, ?_⟩
    cases hd : c.dest
    simp_all
  · rintro ⟨c, hc, hd⟩
    rw [hg.mem_connectionList] at hc
    have hinto : c ∈ g.connectionsInto p.node p.key :=
      hg.mem_connectionsInto.2 ⟨hc, by rw [hd], by rw [hd]⟩
    have hslot := mem_takenSlots hinto (by rw [hd])
    rwa [hd] at hslot

theorem IsLeastFree.of_sameGroup {p' : PortRef} (h : g.IsLeastFree p slot) (hp : p'.sameGroup p) :
    g.IsLeastFree p' slot := by
  obtain ⟨hn, hk, hr⟩ := PortRef.sameGroup_iff.1 hp
  unfold IsLeastFree Occupied at h ⊢
  rwa [hn, hk, hr]

theorem WellFormed.isLeastFree (hg : g.WellFormed) (p : PortRef) :
    g.IsLeastFree p (leastFree (g.takenSlots p)) := by
  simp only [IsLeastFree, ← hg.mem_takenSlots_iff]
  exact ⟨leastFree_not_mem _, fun _ => mem_of_lt_leastFree⟩

/-! ## Shown ports -/

theorem shownSlots_of_ne (hm : s.mode ≠ .duplicate) (id : NodeId) : g.shownSlots id s = [0] := by
  unfold shownSlots
  split <;> simp_all

theorem mem_shownSlots (hm : s.mode = .duplicate) : slot ∈ g.shownSlots id s ↔
    slot = leastFree (g.takenSlots ⟨id, s.key, s.role, 0⟩) ∨
      slot ∈ g.takenSlots ⟨id, s.key, s.role, 0⟩ := by
  simp only [shownSlots, hm, Std.ExtTreeSet.mem_toList, Std.ExtTreeSet.mem_ofList,
    List.contains_iff_mem, List.mem_cons]

theorem pairwise_shownSlots (id : NodeId) (s : PortSpec) :
    (g.shownSlots id s).Pairwise (· < ·) := by
  unfold shownSlots
  split
  · exact Std.ExtTreeSet.ordered_toList.imp fun h => Nat.compare_eq_lt.1 h
  · exact List.pairwise_singleton _ _
  · exact List.pairwise_singleton _ _

theorem mem_shown : q ∈ g.shown n ↔
    ∃ s ∈ n.ports, q.slot ∈ g.shownSlots n.id s ∧ q = ⟨n.id, s.key, s.role, s.mode, q.slot⟩ := by
  simp only [shown, shownAt, List.mem_flatten, List.mem_map]
  constructor
  · rintro ⟨_, ⟨s, hs, rfl⟩, hq⟩
    obtain ⟨slot, hslot, rfl⟩ := List.mem_map.1 hq
    exact ⟨s, hs, hslot, rfl⟩
  · rintro ⟨s, hs, hslot, hq⟩
    exact ⟨_, ⟨s, hs, rfl⟩, List.mem_map.2 ⟨q.slot, hslot, hq.symm⟩⟩

theorem nodup_shown (hu : Unrepeated n.ports) : (g.shown n).Nodup := by
  rw [shown, List.nodup_flatten, List.pairwise_map]
  constructor
  · intro qs hqs
    obtain ⟨s, -, rfl⟩ := List.mem_map.1 hqs
    refine List.Nodup.map (fun a b h => congrArg Port.slot h) ?_
    exact (pairwise_shownSlots n.id s).imp fun h => h.ne
  · refine (List.pairwise_map.1 hu).imp fun {s t} hne q hq hq' => hne ?_
    obtain ⟨_, -, rfl⟩ := List.mem_map.1 hq
    obtain ⟨_, -, h⟩ := List.mem_map.1 hq'
    exact Prod.ext (congrArg Port.role h).symm (congrArg Port.key h).symm

/-- The ports shown of one group. -/
theorem filter_shown (hu : Unrepeated n.ports) (ht : t ∈ n.ports) :
    (g.shown n).filter (fun q => q.role = t.role ∧ q.key = t.key) = g.shownAt n.id t := by
  have hothers {ss : List PortSpec} (hss : ∀ s ∈ ss, ¬(s.role = t.role ∧ s.key = t.key)) :
      ((ss.map (g.shownAt n.id)).flatten).filter
        (fun q => q.role = t.role ∧ q.key = t.key) = [] := by
    refine List.filter_eq_nil_iff.2 fun q hq => ?_
    obtain ⟨_, hqs, hq⟩ := List.mem_flatten.1 hq
    obtain ⟨s, hs, rfl⟩ := List.mem_map.1 hqs
    obtain ⟨_, -, rfl⟩ := List.mem_map.1 hq
    simpa using hss s hs
  obtain ⟨before, after, hports⟩ := List.append_of_mem ht
  have hne : ∀ s ∈ before ++ after, ¬(s.role = t.role ∧ s.key = t.key) := by
    rw [Unrepeated, hports, List.map_append, List.map_cons, List.nodup_middle, List.nodup_cons,
      ← List.map_append] at hu
    exact fun s hs h => hu.1 (List.mem_map.2 ⟨s, hs, Prod.ext h.1 h.2⟩)
  have hsame : (g.shownAt n.id t).filter (fun q => q.role = t.role ∧ q.key = t.key) =
      g.shownAt n.id t := by
    refine List.filter_eq_self.2 fun q hq => ?_
    obtain ⟨_, -, rfl⟩ := List.mem_map.1 hq
    simp
  rw [shown, hports, List.map_append, List.map_cons, List.flatten_append, List.flatten_cons,
    List.filter_append, List.filter_append, hsame,
    hothers fun s hs => hne s (List.mem_append_left _ hs),
    hothers fun s hs => hne s (List.mem_append_right _ hs), List.nil_append, List.append_nil]

/-! ## Ports that are named -/

theorem isNamed_iff : isNamed p q = true ↔ q.node = p.node ∧ q.key = p.key ∧ q.role = p.role ∧
    (q.mode = .duplicate → q.slot = p.slot) := by
  simp [isNamed, PortRef.sameGroup_iff, Port.ref, and_assoc, or_iff_not_imp_right]

/-- A reference names at most one of the ports that are shown. -/
theorem eq_of_isNamed (hu : Unrepeated n.ports) (hq : q ∈ g.shown n) (hq' : q' ∈ g.shown n)
    (h : isNamed p q = true) (h' : isNamed p q' = true) : q = q' := by
  rw [isNamed_iff] at h h'
  obtain ⟨s, hs, hslot, hqs⟩ := mem_shown.1 hq
  obtain ⟨t, ht, hslot', hqt⟩ := mem_shown.1 hq'
  obtain ⟨-, hk, hr, hd⟩ := hqs ▸ h
  obtain ⟨-, hk', hr', hd'⟩ := hqt ▸ h'
  obtain rfl : s = t := hu.eq hs ht (hr.trans hr'.symm) (hk.trans hk'.symm)
  have hsame : q.slot = q'.slot := by
    by_cases hm : s.mode = .duplicate
    · exact (hd hm).trans (hd' hm).symm
    · rw [shownSlots_of_ne hm, List.mem_singleton] at hslot hslot'
      exact hslot.trans hslot'.symm
  rw [hqs, hqt, hsame]

theorem isNamed_ref (q : Port) : isNamed q.ref q = true :=
  isNamed_iff.2 ⟨rfl, rfl, rfl, fun _ => rfl⟩

theorem find?_shown (hu : Unrepeated n.ports) (hq : q ∈ g.shown n) :
    (g.shown n).find? (isNamed q.ref) = some q := by
  cases h : (g.shown n).find? (isNamed q.ref) with
  | none => exact absurd (isNamed_ref q) (List.find?_eq_none.1 h q hq)
  | some q' =>
    exact congrArg some
      (eq_of_isNamed hu (List.mem_of_find?_eq_some h) hq (List.find?_some h) (isNamed_ref q))

/-! ## Connections at shown ports -/

/-- The connections that stand at a shown port. In a row of duplicates each slot has only its own;
any other port has all of its group. -/
def standing (g : Graph) (q : Port) : List Connection :=
  let conns := if q.role.isSource then g.connectionsFrom q.node q.key
    else g.connectionsInto q.node q.key
  conns.filter fun c =>
    let tip := if q.role.isSource then c.src else c.dest
    tip.role == q.role && (q.mode ≠ .duplicate || tip.slot == q.slot)

theorem WellFormed.mem_standing (hg : g.WellFormed) : c ∈ g.standing q ↔ c ∈ g.connectionList ∧
    isNamed (if q.role.isSource then c.src else c.dest) q = true := by
  simp only [standing, List.mem_filter, hg.mem_connectionList, isNamed_iff, @eq_comm _ q.node,
    @eq_comm _ q.key, @eq_comm _ q.role, @eq_comm _ q.slot]
  cases q.role.isSource with
  | false => simp [hg.mem_connectionsInto, and_assoc, or_iff_not_imp_left]
  | true => simp [hg.mem_connectionsFrom, and_assoc, or_iff_not_imp_left]

/-! ## Every connection stands at a shown port -/

theorem Shows.existsUnique (h : g.Shows p) (hn : g.node? p.node = some n)
    (hu : Unrepeated n.ports) :
    ∃! q, q ∈ g.shown n ∧ isNamed p q = true := by
  obtain ⟨m, q, hm, hq, hpq⟩ := h
  cases hn.symm.trans hm
  exact ⟨q, ⟨hq, hpq⟩, fun q' hq' => eq_of_isNamed hu hq'.1 hq hq'.2 hpq⟩

/-- The slot at which a shown port of a row of duplicates is named: one that is taken, or the least
free one. -/
theorem Shows.slot_mem (h : g.Shows p) (hg : g.WellFormed) : ∃ n, g.node? p.node = some n ∧
    ∃ s ∈ n.ports, s.key = p.key ∧ s.role = p.role ∧ (s.mode = .duplicate →
      p.slot = leastFree (g.takenSlots p) ∨ p.slot ∈ g.takenSlots p) := by
  obtain ⟨n, q, hn, hq, hpq⟩ := h
  obtain ⟨s, hs, hslot, hqs⟩ := mem_shown.1 hq
  obtain ⟨-, hk, hr, hd⟩ := isNamed_iff.1 hpq
  rw [hqs] at hk hr hd
  dsimp only at hk hr hd
  refine ⟨n, hn, s, hs, hk, hr, fun hm => ?_⟩
  have hmem := (mem_shownSlots hm).1 hslot
  rw [hg.node_id hn, hk, hr, hd hm] at hmem
  exact hmem

theorem WellFormed.shows (hg : g.WellFormed) (hn : g.node? p.node = some n) (hs : s ∈ n.ports)
    (hk : s.key = p.key) (hr : s.role = p.role) (hslot : s.mode = .duplicate →
      p.slot = leastFree (g.takenSlots p) ∨ p.slot ∈ g.takenSlots p) : g.Shows p := by
  have hid := hg.node_id hn
  by_cases hm : s.mode = .duplicate
  · refine ⟨n, ⟨n.id, s.key, s.role, s.mode, p.slot⟩, hn, mem_shown.2 ⟨s, hs, ?_, rfl⟩,
      isNamed_iff.2 ⟨hid, hk, hr, fun _ => rfl⟩⟩
    rw [mem_shownSlots hm, hid, hk, hr]
    exact hslot hm
  · refine ⟨n, ⟨n.id, s.key, s.role, s.mode, 0⟩, hn, mem_shown.2 ⟨s, hs, ?_, rfl⟩,
      isNamed_iff.2 ⟨hid, hk, hr, fun h => absurd h hm⟩⟩
    rw [shownSlots_of_ne hm]
    exact List.mem_singleton_self 0

theorem Fitted.shows (h : g.Fitted) (hg : g.WellFormed) (hc : g.connection? k = some c) :
    g.Shows c.dest := by
  obtain ⟨-, t, ht⟩ := h.target hc
  obtain ⟨n, hn, ht, hk, hr⟩ := resolve_mem ht
  obtain rfl := hg.connection_id hc
  exact hg.shows hn ht hk hr fun _ =>
    .inr (mem_takenSlots (hg.mem_connectionsInto.2 ⟨hc, rfl, rfl⟩) rfl)

/-- Every connection starts at a port that is shown. No connection ends at an output, so of a row of
outputs only slot zero is. -/
def Sourced (g : Graph) : Prop :=
  ∀ k c, g.connection? k = some c → ∃ n, g.node? c.src.node = some n ∧
    ∃ s ∈ n.ports, s.key = c.src.key ∧ s.role = c.src.role ∧
      (s.mode = .duplicate → c.src.slot = 0)

theorem sourced_empty : Graph.empty.Sourced := by
  intro k c hc
  simp [Graph.empty, connection?] at hc

theorem Fitted.takenSlots_output (h : g.Fitted) (hg : g.WellFormed) (hr : p.role = .output) :
    g.takenSlots p = [] := by
  refine List.eq_nil_iff_forall_not_mem.2 fun slot hslot => ?_
  obtain ⟨c, hc, hd⟩ := hg.mem_takenSlots_iff.1 hslot
  obtain ⟨hrole, -⟩ := h.target (hg.mem_connectionList.1 hc)
  rw [hd] at hrole
  simp [hr] at hrole

theorem Sourced.shows (h : g.Sourced) (hf : g.Fitted) (hg : g.WellFormed)
    (hc : g.connection? k = some c) : g.Shows c.src := by
  obtain ⟨n, hn, s, hs, hk, hr, hslot⟩ := h k c hc
  refine hg.shows hn hs hk hr fun hm => .inl ?_
  rw [hf.takenSlots_output hg (hf.source hc).1, hslot hm]
  rfl

theorem Sourced.of_subset {g' : Graph} (h : g.Sourced)
    (hsub : ∀ {k c}, g'.connection? k = some c → g.connection? k = some c ∧
      (g'.node? c.src.node).map Node.ports = (g.node? c.src.node).map Node.ports) : g'.Sourced := by
  intro k c hc
  obtain ⟨hc, hports⟩ := hsub hc
  obtain ⟨n, hn, s, hs, hrest⟩ := h k c hc
  rw [hn, Option.map_some, Option.map_eq_some_iff] at hports
  obtain ⟨m, hm, hmn⟩ := hports
  exact ⟨m, hm, s, hmn ▸ hs, hrest⟩

theorem Sourced.joined (h : g.Sourced) (hf : g.Fitted) (hg : g.WellFormed)
    (hshows : g.Shows c.src) (hr : c.src.role = .output) : (g.joined c).Sourced := by
  intro k d hd
  rcases connection?_joined_cases hd with ⟨-, rfl⟩ | hd
  · obtain ⟨n, hn, s, hs, hk, hr', hslot⟩ := hshows.slot_mem hg
    refine ⟨n, hn, s, hs, hk, hr', fun hm => ?_⟩
    have hslot := hslot hm
    rw [hf.takenSlots_output hg hr] at hslot
    exact hslot.elim id fun h => absurd h List.not_mem_nil
  · exact h k d hd

/-- A connection stands at just one of the ports that are shown on a side of it: at the one that its
end names, and by `eq_of_isNamed` there is but one of these. -/
theorem WellFormed.existsUnique_standing (hg : g.WellFormed) {source : Bool}
    (hc : c ∈ g.connectionList) (hp : p = if source then c.src else c.dest)
    (hr : p.role.isSource = source) (hshows : g.Shows p) (hn : g.node? p.node = some n)
    (hu : Unrepeated n.ports) :
    ∃! q, q ∈ g.shown n ∧ q.role.isSource = source ∧ c ∈ g.standing q := by
  obtain ⟨q, ⟨hq, hpq⟩, hunique⟩ := hshows.existsUnique hn hu
  have hside : q.role.isSource = source := (congrArg _ (isNamed_iff.1 hpq).2.2.1).trans hr
  refine ⟨q, ⟨hq, hside, hg.mem_standing.2 ⟨hc, ?_⟩⟩, fun q' ⟨hq', hside', hc'⟩ => ?_⟩
  · rw [hside, ← hp]
    exact hpq
  · have hnamed := (hg.mem_standing.1 hc').2
    rw [hside', ← hp] at hnamed
    exact hunique q' ⟨hq', hnamed⟩

/-- No connection stands at the least free slot. -/
theorem WellFormed.standing_leastFree (hg : g.WellFormed) (hr : t.role.isSource = false)
    (hm : t.mode = .duplicate) {slot : Nat}
    (hfree : ¬g.Occupied ⟨id, t.key, t.role, slot⟩ slot) :
    g.standing ⟨id, t.key, t.role, t.mode, slot⟩ = [] := by
  refine List.eq_nil_iff_forall_not_mem.2 fun c hc => hfree ⟨c, ?_⟩
  obtain ⟨hc, hnamed⟩ := hg.mem_standing.1 hc
  rw [isNamed_iff] at hnamed
  simp only [hr, Bool.false_eq_true, if_false] at hnamed
  obtain ⟨hn, hk, hr', hslot⟩ := hnamed
  refine ⟨hc, ?_⟩
  cases hd : c.dest
  simp_all

/-- An admitted wire that asks for a shown slot of a row of duplicates gets the least free one: that
is what it asks for, or the slot is taken and `assignSlot` gives it that one. -/
theorem WellFormed.isLeastFree_assignSlot (hg : g.WellFormed) {w : Wire} (hw : w.Admitted g s t)
    (hshows : g.Shows w.dest) (hn : g.node? w.dest.node = some n) (hu : Unrepeated n.ports)
    (hm : t.mode = .duplicate) :
    g.IsLeastFree (g.assignSlot t.mode w.dest) (g.assignSlot t.mode w.dest).slot := by
  obtain ⟨m, hm', ht, hk, hr⟩ := resolve_mem hw.dest
  cases hn.symm.trans hm'
  obtain ⟨m, hm', s', hs', hk', hr', hslot⟩ := hshows.slot_mem hg
  cases hn.symm.trans hm'
  obtain rfl : s' = t := hu.eq hs' ht (hr'.trans hr.symm) (hk'.trans hk.symm)
  have hleast : (g.assignSlot s'.mode w.dest).slot = leastFree (g.takenSlots w.dest) := by
    unfold assignSlot
    rw [hm]
    dsimp only
    split
    · rfl
    next hfree => exact (hslot hm).resolve_right hfree
  rw [hleast]
  exact (hg.isLeastFree w.dest).of_sameGroup (PortRef.sameGroup_iff.2 (assignSlot_group ..))

end Graph

end Dataflow
