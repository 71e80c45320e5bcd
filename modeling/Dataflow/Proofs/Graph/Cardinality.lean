import Dataflow.Proofs.Admission
import Dataflow.Proofs.Graph.Undo

/-! Connections that keep to the modes of the ports they join (`Fitted`), and what leaves them so:
taking some away (`Fitted.of_subset`), and one more between ports that admit it (`Fitted.joined`).
-/

namespace Dataflow

theorem leastFree_not_mem (taken : List Nat) : leastFree taken ∉ taken := by
  unfold leastFree
  cases h : (List.range (taken.length + 1)).find? fun s => !taken.contains s with
  | some s => simpa using List.find?_some h
  | none =>
    -- more numbers would be taken than there are
    have hsub : List.range (taken.length + 1) ⊆ taken := fun s hs => by
      simpa using List.find?_eq_none.1 h s hs
    have := (List.nodup_range.subperm hsub).length_le
    rw [List.length_range] at this
    omega

theorem PortRef.sameGroup_iff {p q : PortRef} :
    p.sameGroup q ↔ p.node = q.node ∧ p.key = q.key ∧ p.role = q.role := by
  simp [sameGroup, and_assoc]

theorem PortRef.sameGroup_symm {p q : PortRef} (h : p.sameGroup q) : q.sameGroup p := by
  simp_all [sameGroup_iff]

theorem PortRef.sameGroup_trans {p q r : PortRef} (h : p.sameGroup q) (h' : q.sameGroup r) :
    p.sameGroup r := by
  simp_all [sameGroup_iff]

theorem PortRole.isSource_iff {r : PortRole} : r.isSource = true ↔ r = .output := by
  cases r <;> simp [isSource]

theorem PortRole.isSource_eq_false_iff {r : PortRole} :
    r.isSource = false ↔ r = .input ∨ r = .property := by
  cases r <;> simp [isSource]

namespace Graph

variable {g g' : Graph} {p q : PortRef} {c d : Connection} {k : ConnectionId} {s t : PortSpec}

/-! ## Slots -/

theorem assignSlot_group (m : PortMode) (q : PortRef) :
    (g.assignSlot m q).node = q.node ∧ (g.assignSlot m q).key = q.key ∧
      (g.assignSlot m q).role = q.role := by
  unfold assignSlot
  cases m <;> dsimp only <;> repeat' split
  all_goals simp

theorem assignSlot_slot_not_mem {m : PortMode} (hm : m ≠ .single) (q : PortRef) :
    (g.assignSlot m q).slot ∉ g.takenSlots q := by
  unfold assignSlot
  cases m with
  | single => exact absurd rfl hm
  | multiple | duplicate =>
    dsimp only
    split
    · exact leastFree_not_mem _
    · assumption

theorem mem_takenSlots (hd : d ∈ g.connectionsInto q.node q.key) (hr : d.dest.role = q.role) :
    d.dest.slot ∈ g.takenSlots q :=
  List.mem_map_of_mem (List.mem_filter.2 ⟨hd, by simpa using hr⟩)

/-! ## What a reference resolves to -/

theorem resolve_congr
    (h : (g'.node? p.node).map Node.ports = (g.node? p.node).map Node.ports) :
    ∀ s, g'.resolve p = .ok s ↔ g.resolve p = .ok s := by
  intro s
  unfold resolve requireNode Node.port?
  cases hn : g.node? p.node <;> cases hn' : g'.node? p.node <;> simp_all [bind, Except.bind]

theorem resolve_sameGroup (h : p.sameGroup q) : g.resolve p = g.resolve q := by
  obtain ⟨hn, hk, hr⟩ := PortRef.sameGroup_iff.1 h
  simp only [resolve, hn, hk, hr]

theorem insertConnection_eq (hp : g.resolve p = .ok s) (hq : g.resolve q = .ok t) :
    g.insertConnection p q =
      .ok (⟨⟨g.nextConnection⟩, p, g.assignSlot t.mode q⟩,
        g.joined ⟨⟨g.nextConnection⟩, p, g.assignSlot t.mode q⟩) := by
  simp only [insertConnection, hp, hq, bind, Except.bind]
  rfl

/-! ## Connections that keep to the modes -/

/-- Every connection joins a declared output to a declared input or property, and no group has more
connections than its mode allows. -/
structure Fitted (g : Graph) : Prop where
  source : ∀ {k c}, g.connection? k = some c → c.src.role = .output ∧ ∃ s, g.resolve c.src = .ok s
  target : ∀ {k c}, g.connection? k = some c →
    (c.dest.role = .input ∨ c.dest.role = .property) ∧ ∃ t, g.resolve c.dest = .ok t
  /-- A single input or property has at most one connection. -/
  single : ∀ {k l c d t}, g.connection? k = some c → g.connection? l = some d →
    c.dest.sameGroup d.dest → g.resolve c.dest = .ok t → t.mode = .single → k = l
  slot_zero : ∀ {k c t}, g.connection? k = some c → g.resolve c.dest = .ok t → t.mode = .single →
    c.dest.slot = 0
  /-- A single output feeds at most one connection. -/
  exclusive : ∀ {k l c d s}, g.connection? k = some c → g.connection? l = some d →
    c.src.sameGroup d.src → g.resolve c.src = .ok s → s.mode = .single → k = l
  /-- No slot of any group is taken twice. -/
  slots : ∀ {k l c d}, g.connection? k = some c → g.connection? l = some d → c.dest = d.dest → k = l
  bounded : ∀ {k c s t}, g.connection? k = some c → g.resolve c.src = .ok s →
    g.resolve c.dest = .ok t → ¬(s.mode = .multiple ∧ t.mode = .multiple)

theorem fitted_empty : Graph.empty.Fitted := by
  have none (k : ConnectionId) (c : Connection) : Graph.empty.connection? k ≠ some c := by
    simp [Graph.empty, connection?]
  constructor <;> intros <;> exact absurd ‹_› (none _ _)

/-- With fewer connections, and the same groups at those that stay. -/
theorem Fitted.of_subset (h : g.Fitted)
    (hsub : ∀ {k c}, g'.connection? k = some c → g.connection? k = some c ∧
      (∀ s, g'.resolve c.src = .ok s ↔ g.resolve c.src = .ok s) ∧
      ∀ t, g'.resolve c.dest = .ok t ↔ g.resolve c.dest = .ok t) : g'.Fitted where
  source hc := by
    obtain ⟨hc, hs, -⟩ := hsub hc
    simpa only [hs] using h.source hc
  target hc := by
    obtain ⟨hc, -, ht⟩ := hsub hc
    simpa only [ht] using h.target hc
  single hc hd hg ht := h.single (hsub hc).1 (hsub hd).1 hg (((hsub hc).2.2 _).1 ht)
  slot_zero hc ht := h.slot_zero (hsub hc).1 (((hsub hc).2.2 _).1 ht)
  exclusive hc hd hg hs := h.exclusive (hsub hc).1 (hsub hd).1 hg (((hsub hc).2.1 _).1 hs)
  slots hc hd := h.slots (hsub hc).1 (hsub hd).1
  bounded hc hs ht := h.bounded (hsub hc).1 (((hsub hc).2.1 _).1 hs) (((hsub hc).2.2 _).1 ht)

/-! ## A new connection -/

theorem connection?_joined_cases (h : (g.joined c).connection? k = some d) :
    k = c.id ∧ d = c ∨ g.connection? k = some d := by
  rw [connection?_joined] at h
  split at h
  · exact .inl ⟨‹_›, (Option.some.inj h).symm⟩
  · exact .inr h

/-- What no two connections are to each other, no two are with one more that is so to none. -/
theorem unique_joined {R : Connection → Connection → Prop} (symm : ∀ {d d'}, R d d' → R d' d)
    (hnew : ∀ {l d}, g.connection? l = some d → ¬R d c)
    (hold : ∀ {k l d d'}, g.connection? k = some d → g.connection? l = some d' → R d d' → k = l)
    {k l : ConnectionId} {d d' : Connection} (hd : (g.joined c).connection? k = some d)
    (hd' : (g.joined c).connection? l = some d') (h : R d d') : k = l := by
  rcases connection?_joined_cases hd with ⟨hk, hdc⟩ | hd <;>
    rcases connection?_joined_cases hd' with ⟨hl, hdc'⟩ | hd'
  · exact hk.trans hl.symm
  · exact absurd (symm (hdc ▸ h)) (hnew hd')
  · exact absurd (hdc' ▸ h) (hnew hd)
  · exact hold hd hd' h

section Admitted

variable {w : Wire}

/-- A group that has a connection admits another one only in a slot of its own. -/
theorem WellFormed.admitted_dest (hg : g.WellFormed) (hw : w.Admitted g s t)
    (hd : g.connection? k = some d) (h : d.dest.sameGroup w.dest) :
    t.mode ≠ .single ∧ d.dest.slot ≠ (g.assignSlot t.mode w.dest).slot := by
  obtain ⟨hn, hk, hr⟩ := PortRef.sameGroup_iff.1 h
  obtain rfl := hg.connection_id hd
  have hmem : d ∈ g.connectionsInto w.dest.node w.dest.key :=
    hg.mem_connectionsInto.2 ⟨hd, hn, hk⟩
  have hm : t.mode ≠ .single := fun hm => by
    rw [hw.vacant hm] at hmem
    cases hmem
  exact ⟨hm, fun he => assignSlot_slot_not_mem hm _ (he ▸ mem_takenSlots hmem hr)⟩

theorem WellFormed.admitted_src (hg : g.WellFormed) (hw : w.Admitted g s t)
    (hd : g.connection? k = some d) (h : d.src.sameGroup w.src) : s.mode ≠ .single := by
  obtain ⟨hn, hk, -⟩ := PortRef.sameGroup_iff.1 h
  obtain rfl := hg.connection_id hd
  have hmem : d ∈ g.connectionsFrom w.src.node w.src.key :=
    hg.mem_connectionsFrom.2 ⟨hd, hn, hk⟩
  intro hm
  rw [hw.unused hm] at hmem
  cases hmem

theorem Fitted.joined (h : g.Fitted) (hg : g.WellFormed) (hw : w.Admitted g s t)
    (hsrc : c.src = w.src) (hdest : c.dest = g.assignSlot t.mode w.dest) :
    (g.joined c).Fitted := by
  have hgroup : c.dest.sameGroup w.dest := by
    rw [hdest]
    exact PortRef.sameGroup_iff.2 (assignSlot_group ..)
  have hs : g.resolve c.src = .ok s := hsrc ▸ hw.src
  have ht : g.resolve c.dest = .ok t := (resolve_sameGroup hgroup).trans hw.dest
  have hmode {r : PortSpec} (hr : g.resolve c.dest = .ok r) : r = t :=
    Except.ok.inj (hr.symm.trans ht)
  refine ⟨fun hd => ?_, fun hd => ?_, fun {k l d d' r} hd hd' hdd hr hm => ?_,
    fun {k d r} hd hr hm => ?_, fun {k l d d' r} hd hd' hdd hr hm => ?_, fun hd hd' hdd => ?_,
    fun {k d r r'} hd hr hr' => ?_⟩
  · rcases connection?_joined_cases hd with ⟨-, rfl⟩ | hd
    · exact ⟨PortRole.isSource_iff.1 (hsrc ▸ hw.isSource), s, hs⟩
    · exact h.source hd
  · rcases connection?_joined_cases hd with ⟨-, rfl⟩ | hd
    · refine ⟨PortRole.isSource_eq_false_iff.1 ?_, t, ht⟩
      rw [(PortRef.sameGroup_iff.1 hgroup).2.2]
      exact hw.isTarget
    · exact h.target hd
  · refine unique_joined (g := g)
      (R := fun d d' => d.dest.sameGroup d'.dest ∧ g.resolve d.dest = .ok r)
      (fun h => ⟨PortRef.sameGroup_symm h.1, resolve_sameGroup h.1 ▸ h.2⟩)
      (fun hd hdc => ?_) (fun hd hd' hdd => h.single hd hd' hdd.1 hdd.2 hm) hd hd' ⟨hdd, hr⟩
    have hr := hdc.2
    rw [resolve_sameGroup hdc.1] at hr
    exact (hg.admitted_dest hw hd (PortRef.sameGroup_trans hdc.1 hgroup)).1 (hmode hr ▸ hm)
  · rcases connection?_joined_cases hd with ⟨-, rfl⟩ | hd
    · rw [hdest, ← hmode hr, hm]
      rfl
    · exact h.slot_zero hd hr hm
  · refine unique_joined (g := g)
      (R := fun d d' => d.src.sameGroup d'.src ∧ g.resolve d.src = .ok r)
      (fun h => ⟨PortRef.sameGroup_symm h.1, resolve_sameGroup h.1 ▸ h.2⟩)
      (fun hd hdc => ?_) (fun hd hd' hdd => h.exclusive hd hd' hdd.1 hdd.2 hm) hd hd' ⟨hdd, hr⟩
    have hr := hdc.2
    rw [resolve_sameGroup hdc.1] at hr
    exact hg.admitted_src hw hd (hsrc ▸ hdc.1) (Except.ok.inj (hr.symm.trans hs) ▸ hm)
  · refine unique_joined (g := g) (R := fun d d' => d.dest = d'.dest) Eq.symm
      (fun {l d} hd hdc => ?_) h.slots hd hd' hdd
    have hd' : d.dest.sameGroup w.dest := hdc ▸ hgroup
    exact (hg.admitted_dest hw hd hd').2 (congrArg PortRef.slot (hdc.trans hdest))
  · rcases connection?_joined_cases hd with ⟨-, rfl⟩ | hd
    · rw [Except.ok.inj (hr.symm.trans hs), hmode hr']
      exact hw.bounded
    · exact h.bounded hd hr hr'

end Admitted

end Graph

end Dataflow
