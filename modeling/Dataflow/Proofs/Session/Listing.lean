import Dataflow.Proofs.Graph.Listing
import Dataflow.Proofs.Session.Built
import Dataflow.Proofs.Session.Reporting

/-! In sessions that were changed by batches alone, the ports that a node shows share out its
connections, and a new connection into a row of duplicates goes to the least free slot.

This takes that the node declares every key but once for each role (`Unrepeated`). Whatever modules
the session has and whatever it has been asked, the questions about the ports and connections of its
graph are answered right (`Reached.perform_ends`). -/

namespace Dataflow

open Memo (Table)

/-! ## Every change leaves connections at shown ports -/

section Change

variable {o : Precedence} {e : Engine} {t : Table} {c : Change} {f : Effect}

theorem Move.sourced (m : Move e t c f) (hg : e.graph.WellFormed)
    (ht : e.Sound o Query.AboutStore t) (hf : e.graph.Fitted) (h : e.graph.Sourced) :
    f.graph.Sourced := by
  by_cases hc : ∃ p q, c = .connect p q
  · obtain ⟨p, q, rfl⟩ := hc
    cases m with
    | connect hw hc =>
      obtain ⟨s, t, hadmitted⟩ := Engine.admitted_of_check hg ht hw
      have hshows := (Engine.shows_of_check hg ht hw).1
      rw [Graph.insertConnection_eq hadmitted.src hadmitted.dest] at hc
      obtain ⟨rfl, -⟩ := Prod.mk.inj (Except.ok.inj hc)
      exact h.joined hf hg hshows (PortRole.isSource_iff.1 hadmitted.isSource)
  · refine h.of_subset fun hd => ?_
    obtain ⟨hd, hports⟩ := m.stays hg (fun p q he => hc ⟨p, q, he⟩) hd
    exact ⟨hd, hports _ (.inl rfl)⟩

/-- A batch on its way whose connections stand at ports that are shown. -/
structure Edit.Lists (e : Edit) : Prop extends e.Fits where
  sourced : e.graph.Sourced

theorem Edit.Lists.apply {e : Edit} (h : e.Lists) (c : Change) : (c.apply.run e).2.Lists := by
  refine ⟨h.toFits.apply c, ?_⟩
  rcases apply_cases c e h.wellFormed with ⟨f, t, hm, he⟩ | ⟨failure, t, he⟩
  · rw [he]
    exact hm.sourced h.wellFormed h.sound h.fitted h.sourced
  · rw [he]
    exact h.sourced

end Change

/-! ## Where connections go -/

/-- If the destination is in a row of duplicates, at a node that declares no key twice, then the
connection ends at the least free slot of the row. -/
def Graph.TakesLeastFree (g : Graph) (C : Catalogue → Prop) (c : Connection) : Prop :=
  ∀ n t, g.node? c.dest.node = some n → (∀ d, C d → Unrepeated (d.definitionOf n).ports) →
    g.resolve c.dest = .ok t → t.mode = .duplicate → g.IsLeastFree c.dest c.dest.slot

theorem Engine.takesLeastFree {o : Precedence} {e : Engine} {t : Table} {C : Catalogue → Prop}
    (hg : e.graph.WellFormed) (ht : e.Sound o Query.AboutStore t) (hp : e.graph.PortsFrom C)
    {p q : PortRef} {w : Wire} {c : Connection} {g : Graph}
    (hw : (e.perform (Wire.check e.graph p q).run t).1 = .ok w)
    (hc : e.graph.insertConnection w.src w.dest = .ok (c, g)) : e.graph.TakesLeastFree C c := by
  intro n r hn hC hr hm
  obtain ⟨s, r', hadmitted⟩ := admitted_of_check hg ht hw
  rw [Graph.insertConnection_eq hadmitted.src hadmitted.dest] at hc
  obtain ⟨rfl, -⟩ := Prod.mk.inj (Except.ok.inj hc)
  have hgroup : (e.graph.assignSlot r'.mode w.dest).sameGroup w.dest :=
    PortRef.sameGroup_iff.2 (Graph.assignSlot_group ..)
  obtain rfl : r' = r :=
    Except.ok.inj (hadmitted.dest.symm.trans ((Graph.resolve_sameGroup hgroup).symm.trans hr))
  have hn : e.graph.node? w.dest.node = some n := (PortRef.sameGroup_iff.1 hgroup).1 ▸ hn
  obtain ⟨d, hd, hports⟩ := hp _ _ hn
  exact hg.isLeastFree_assignSlot hadmitted (shows_of_check hg ht hw).2 hn (hports ▸ hC d hd) hm

theorem Edit.Fits.takesLeastFree {C : Catalogue → Prop} {e : Edit} (h : e.Fits)
    (hp : e.graph.PortsFrom C) {p q : PortRef} {c : Connection}
    (hok : ((Edit.connect p q).run e).1 = .ok c) : e.graph.TakesLeastFree C c := by
  rw [connect_fst] at hok
  split at hok
  · cases hok
  next w hw =>
    cases hc : e.graph.insertConnection w.src w.dest with
    | error failure =>
      rw [hc] at hok
      cases hok
    | ok r =>
      rw [hc] at hok
      obtain rfl := Except.ok.inj hok
      exact Engine.takesLeastFree h.wellFormed h.sound hp hw hc

/-! ## Ports and connections of a session -/

theorem Plan.port_shown {P : Query → Prop} {right : (q : Query) → q.Answer → Prop} {g : Graph}
    {p : PortRef} {n : Node} {q : Port} (hg : g.Answers right) (hP : ∀ id, P (.ports id))
    (hn : g.node? p.node = some n) (hq : (g.shown n).find? (Graph.isNamed p) = some q) :
    (port p).Ends P right (Except.ok q = ·) := by
  refine .bind (.query (hP p.node)) fun ps hps => ?_
  obtain rfl := hg.ports hps
  rw [hn, Option.map_some]
  dsimp only
  split
  next q' hq' => exact .pure (congrArg _ (Option.some.inj (hq.symm.trans hq')))
  next hnone => cases hq.symm.trans hnone

namespace Session

variable {s : Session} {C : Catalogue → Prop} {id : NodeId} {n : Node} {q : Port}

/-- A plan that ends as it does with right answers about the graph ends so in a session: in every
session that is `Reached` the table is sound for questions about the graph. -/
theorem Reached.perform_ends (h : s.Reached) {α : Type} {Q : α → Prop} {p : Plan α}
    (hp : ∀ right : (q : Query) → q.Answer → Prop, s.graph.Answers right →
      p.Ends (fun _ => True) right Q) : Q (Session.perform p s).1 :=
  Engine.storeDomain.perform_ends (o := .last) Engine.store_apart
    (hp _ (Engine.answers_right (e := s.engine)).about_store) h.sound_store

theorem Reached.ports_eq (h : s.Reached) (hn : s.graph.node? id = some n) :
    (ports id s).1 = .ok (s.graph.shown n) := by
  have hanswer : (Session.perform (Plan.query (.ports id)) s).1 = some (s.graph.shown n) := by
    refine h.perform_ends (Q := (· = some (s.graph.shown n))) fun right hg => ?_
    exact (Plan.Ends.query trivial).mono fun ps hps => (hg.ports hps).trans (congrArg _ hn)
  rw [ports_fst, hanswer]

/-- The connections at a shown port. -/
theorem Reached.connectionsAt_eq (h : s.Reached) (hn : s.graph.node? q.node = some n)
    (hu : Unrepeated n.ports) (hq : q ∈ s.graph.shown n) :
    (connectionsAt q.ref s).1 = .ok (s.graph.standing q) := by
  refine h.perform_ends (p := connectionsPlan q.ref)
    (Q := fun r : Except GraphError _ => r = .ok (s.graph.standing q)) fun right hg => ?_
  refine .bind (Plan.port_shown hg (fun _ => trivial) hn (Graph.find?_shown hu hq)) ?_
  rintro _ rfl
  cases hr : q.role.isSource with
  | true =>
    simp only [Port.ref, hr, if_true]
    refine Plan.Ends.bind (.query (q := .connectionsFrom q.node q.key) trivial) fun cs hcs => ?_
    obtain rfl := hg.connectionsFrom hcs
    exact .pure (by simp only [Graph.standing, hr, if_true])
  | false =>
    simp only [Port.ref, hr, Bool.false_eq_true, if_false]
    refine Plan.Ends.bind (.query (q := .connectionsInto q.node q.key) trivial) fun cs hcs => ?_
    obtain rfl := hg.connectionsInto hcs
    exact .pure (by simp only [Graph.standing, hr, Bool.false_eq_true, if_false])

theorem Edited.lists (h : s.Edited C) : s.openEdit.Lists := by
  refine ⟨⟨h.reached.wellFormed, .of_empty rfl, h.fitted⟩, ?_⟩
  induction h with
  | start => exact Graph.sourced_empty
  | register _ _ _ _ ih => exact ih
  | editAll steps hs ih =>
    obtain ⟨e, he, heq⟩ := editAll_keeps hs.reached.wellFormed (fun c _ h => h.apply c) steps
      (⟨⟨hs.reached.wellFormed, .of_empty rfl, hs.fitted⟩, ih⟩ : Edit.Lists _)
    change (Session.editAll steps _).2.graph.Sourced
    rw [heq]
    exact he.sourced
  | perform _ _ ih => exact ih
  | setPending _ _ ih => exact ih

/-- The connection is among those at the port. -/
def Lists (s : Session) (q : Port) (c : Connection) : Prop :=
  ∃ cs, (connectionsAt q.ref s).1 = .ok cs ∧ c ∈ cs

/-- At a node that declares every key but once for each role, no port is shown twice. Each
connection that ends at the node is at one and only one of the inputs and properties that are shown,
and each that starts there at one and only one of the outputs (`Session.Lists`). A row of duplicates
shows in ascending order the slots that connections end at and the least free one
(`Graph.IsLeastFree`), at which there is no connection. And wherever in a row a connection is asked
for, by itself or in the middle of a batch, once it is accepted it goes to the least free slot
(`Graph.TakesLeastFree`).

By `Reached.ports_eq` and `Reached.connectionsAt_eq` the answers are `Graph.shown` and
`Graph.standing`, so that all of this is about the graph. -/
theorem ports_share_connections (h : s.Edited C) :
    (∀ id n, s.graph.node? id = some n → (∀ d, C d → Unrepeated (d.definitionOf n).ports) →
      ∃ qs, (ports id s).1 = .ok qs ∧ qs.Nodup ∧
        (∀ c ∈ s.graph.connectionList, c.dest.node = id →
          ∃! q, q ∈ qs ∧ q.role.isSource = false ∧ s.Lists q c) ∧
        (∀ c ∈ s.graph.connectionList, c.src.node = id →
          ∃! q, q ∈ qs ∧ q.role.isSource = true ∧ s.Lists q c) ∧
        ∀ t ∈ n.ports, t.role.isSource = false → t.mode = .duplicate →
          ∃ free, s.graph.IsLeastFree ⟨id, t.key, t.role, 0⟩ free ∧
            (connectionsAt ⟨id, t.key, t.role, free⟩ s).1 = .ok [] ∧
            let slots := (qs.filter fun q => q.role = t.role ∧ q.key = t.key).map Port.slot
            slots.Pairwise (· < ·) ∧ ∀ slot, slot ∈ slots ↔
              slot = free ∨ s.graph.Occupied ⟨id, t.key, t.role, 0⟩ slot) ∧
      (∀ p q c, (connect p q s).1 = .ok c → s.graph.TakesLeastFree C c) ∧
      ∀ steps p q c, let e := (Step.applyAll steps s.openEdit).2
        ((Edit.connect p q).run e).1 = .ok c → e.graph.TakesLeastFree C c := by
  have hg := h.reached.wellFormed
  have hf := h.fitted
  have hsourced : s.graph.Sourced := h.lists.sourced
  refine ⟨fun id n hn hd => ⟨_, h.reached.ports_eq hn, ?_⟩, fun p q c hc => ?_,
    fun steps p q c => ?_⟩
  · obtain rfl := hg.node_id hn
    have hu : Unrepeated n.ports := by
      obtain ⟨d, hC, hports⟩ := h.portsFrom _ _ hn
      exact hports ▸ hd d hC
    have hlists {q : Port} (hq : q ∈ s.graph.shown n) (c : Connection) :
        s.Lists q c ↔ c ∈ s.graph.standing q := by
      obtain ⟨t, -, -, hqt⟩ := Graph.mem_shown.1 hq
      have hnode : s.graph.node? q.node = some n := by rw [hqt]; exact hn
      rw [Lists, h.reached.connectionsAt_eq hnode hu hq]
      simp
    have hshare {source : Bool} {c : Connection} :
        (∃! q, q ∈ s.graph.shown n ∧ q.role.isSource = source ∧ s.Lists q c) ↔
          ∃! q, q ∈ s.graph.shown n ∧ q.role.isSource = source ∧ c ∈ s.graph.standing q :=
      existsUnique_congr fun q => and_congr_right fun hq => and_congr_right fun _ => hlists hq c
    refine ⟨Graph.nodup_shown hu, fun c hc hnode => ?_, fun c hc hnode => ?_, fun t ht hr hm => ?_⟩
    · have hk := hg.mem_connectionList.1 hc
      exact hshare.2 (hg.existsUnique_standing hc rfl
        (PortRole.isSource_eq_false_iff.2 (hf.target hk).1) (hf.shows hg hk) (hnode ▸ hn) hu)
    · have hk := hg.mem_connectionList.1 hc
      exact hshare.2 (hg.existsUnique_standing hc rfl
        (PortRole.isSource_iff.2 (hf.source hk).1) (hsourced.shows hf hg hk) (hnode ▸ hn) hu)
    · have hleast := hg.isLeastFree ⟨n.id, t.key, t.role, 0⟩
      have hslots : ((s.graph.shown n).filter fun q => q.role = t.role ∧ q.key = t.key).map
          Port.slot = s.graph.shownSlots n.id t := by
        rw [Graph.filter_shown hu ht, Graph.shownAt, List.map_map]
        exact List.map_id _
      refine ⟨_, hleast, ?_, ?_⟩
      · have hq : ⟨n.id, t.key, t.role, t.mode, leastFree (s.graph.takenSlots
            ⟨n.id, t.key, t.role, 0⟩)⟩ ∈ s.graph.shown n :=
          Graph.mem_shown.2 ⟨t, ht, (Graph.mem_shownSlots hm).2 (.inl rfl), rfl⟩
        exact (h.reached.connectionsAt_eq hn hu hq).trans
          (congrArg _ (hg.standing_leastFree hr hm hleast.1))
      · rw [hslots]
        refine ⟨Graph.pairwise_shownSlots n.id t, fun slot => ?_⟩
        rw [Graph.mem_shownSlots hm, hg.mem_takenSlots_iff]
  · rw [connect_fst] at hc
    exact h.lists.toFits.takesLeastFree h.portsFrom hc
  · intro e hc
    have hfits : e.Fits := Step.applyAll_keeps (fun c _ h => h.apply c) steps h.lists.toFits
    refine hfits.takesLeastFree ?_ hc
    have start : s.openEdit.Holds s.catalogue (·.PortsFrom C) := ⟨rfl, hg, h.portsFrom⟩
    exact (start.applyAll (fun hc hg hp hf =>
      (Change.move hg hf).portsFrom (hc.symm ▸ h.catalogue_mem) hp) steps).holds

/-! ## A row with a gap -/

/-- A number feeds an array twice, and the first of the two connections is taken away again. -/
def gappedSteps : List Step :=
  let wire (slot : Nat) : Step :=
    .change (.connect ⟨⟨0⟩, "output", .output, 0⟩ ⟨⟨1⟩, "input", .input, slot⟩) false
  [.change (.addNode "Core" "Number" ∅) false, .change (.addNode "Core" "Array" ∅) false,
    wire 0, wire 1, .change (.disconnect ⟨0⟩) false]

def gapped : Session := built gappedSteps

def gappedArray : Node := ⟨⟨1⟩, "Core", "Array", ∅, NodeDefinition.array.ports⟩

/-- The connection that is left. -/
def gappedWire : Connection := ⟨⟨1⟩, ⟨⟨0⟩, "output", .output, 0⟩, ⟨⟨1⟩, "input", .input, 1⟩⟩

/-- What becomes of a connection that asks for the slot that is taken. -/
def gapFilled : Connection := ⟨⟨2⟩, ⟨⟨0⟩, "output", .output, 0⟩, ⟨⟨1⟩, "input", .input, 0⟩⟩

def gappedFits (g : Graph) : Bool :=
  g.node? ⟨1⟩ = some gappedArray ∧ g.connectionList = [gappedWire] ∧
    g.resolve gapFilled.dest = .ok (.input "input" .duplicate) ∧
    connectWithin 16 gappedWire.src gappedWire.dest g = some (.ok (.connection gapFilled))

theorem gappedFits_gapped : gappedFits gapped.graph = true := by
  refine built_of_within (d := 16) gappedFits gappedSteps ?_
  decide +kernel

/-- The array shows the connection at one of its ports, and the next one goes to the gap. -/
theorem gapped_share_connections :
    (∃ qs, (ports ⟨1⟩ gapped).1 = .ok qs ∧ qs.Nodup ∧
      ∃! q, q ∈ qs ∧ q.role.isSource = false ∧ gapped.Lists q gappedWire) ∧
    (connect gappedWire.src gappedWire.dest gapped).1 = .ok gapFilled ∧
      gapped.graph.IsLeastFree gapFilled.dest 0 := by
  obtain ⟨hn, hlist, hresolve, hwithin⟩ := of_decide_eq_true gappedFits_gapped
  have hu : ∀ d, d = Catalogue.builtin → Unrepeated (d.definitionOf gappedArray).ports := by
    rintro _ rfl
    decide +kernel
  have hconnect : (connect gappedWire.src gappedWire.dest gapped).1 = .ok gapFilled :=
    connect_of_within (d := 16) hwithin
  obtain ⟨hports, hleast, -⟩ := ports_share_connections (s := gapped) (built_edited gappedSteps)
  obtain ⟨qs, hqs, hnodup, hinto, -⟩ := hports ⟨1⟩ gappedArray hn hu
  exact ⟨⟨qs, hqs, hnodup, hinto gappedWire (hlist ▸ List.mem_singleton_self _) rfl⟩, hconnect,
    hleast _ _ _ hconnect gappedArray _ hn hu hresolve rfl⟩

end Session

end Dataflow
