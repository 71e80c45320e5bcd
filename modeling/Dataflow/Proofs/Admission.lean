import Mathlib.Data.List.Perm.Subperm
import Dataflow.Proofs.Engine.Store
import Dataflow.Proofs.Wiring

/-! What the verdict on two ports says about the ports of the graph: an accepted wire joins declared
groups, and leaves none with more connections than its mode allows (`Wire.Admitted`). -/

namespace Dataflow

variable {g : Graph} {P : Query → Prop} {right : (q : Query) → q.Answer → Prop}

/-! ## Ports that are found -/

namespace Graph

variable {p : PortRef} {n : Node} {q : Port}

/-- Whether a shown port is the one that a reference names. -/
def isNamed (p : PortRef) (q : Port) : Bool :=
  q.ref.sameGroup p && (q.slot == p.slot || q.mode ≠ .duplicate)

theorem find?_shownAt_of_ne {s : PortSpec} {id : NodeId}
    (hs : (s.key == p.key && s.role == p.role) = false) :
    (g.shownAt id s).find? (isNamed p) = none := by
  refine List.find?_eq_none.2 fun q hq => ?_
  obtain ⟨slot, -, rfl⟩ := List.mem_map.1 hq
  simp_all [isNamed, Port.ref, PortRef.sameGroup]

theorem find?_shownAt {s : PortSpec} {id : NodeId} (hid : id = p.node)
    (hs : (s.key == p.key && s.role == p.role) = true) (hm : s.mode ≠ .duplicate) :
    (g.shownAt id s).find? (isNamed p) = some ⟨id, s.key, s.role, s.mode, 0⟩ := by
  have hslots : g.shownSlots id s = [0] := by
    unfold shownSlots
    split <;> simp_all
  rw [shownAt, hslots]
  simp_all [isNamed, Port.ref, PortRef.sameGroup]

/-- A node shows a port that the reference names; in a row of duplicates its slot counts, too. -/
def Shows (g : Graph) (p : PortRef) : Prop :=
  ∃ n q, g.node? p.node = some n ∧ q ∈ g.shown n ∧ isNamed p q = true

/-- A port that is found is of the group that the reference resolves to, except that the rows of two
groups with one name are told apart by slot. -/
theorem port?_of_find?_shown (hn : n.id = p.node) (h : (g.shown n).find? (isNamed p) = some q) :
    ∃ s, n.port? p.key p.role = some s ∧ (s.mode ≠ .duplicate → q.mode = s.mode) := by
  unfold shown at h
  unfold Node.port?
  generalize n.ports = specs at h ⊢
  induction specs with
  | nil => cases h
  | cons s ss ih =>
    rw [List.map_cons, List.flatten_cons, List.find?_append] at h
    rw [List.find?_cons]
    cases hs : s.key == p.key && s.role == p.role with
    | false =>
      rw [find?_shownAt_of_ne hs, Option.none_or] at h
      exact ih h
    | true =>
      refine ⟨s, rfl, fun hm => ?_⟩
      rw [find?_shownAt hn hs hm, Option.some_or] at h
      cases h
      rfl

end Graph

/-! ## Wires that are accepted -/

/-- The wire joins an output to an input or property, both declared, and both have room for it. -/
structure Wire.Admitted (g : Graph) (w : Wire) (s t : PortSpec) : Prop where
  src : g.resolve w.src = .ok s
  dest : g.resolve w.dest = .ok t
  isSource : w.src.role.isSource = true
  isTarget : w.dest.role.isSource = false
  bounded : ¬(s.mode = .multiple ∧ t.mode = .multiple)
  vacant : t.mode = .single → g.connectionsInto w.dest.node w.dest.key = []
  unused : s.mode = .single → g.connectionsFrom w.src.node w.src.key = []

namespace Plan

theorem port_ends (hg : g.Answers right) (hP : ∀ id, P (.ports id)) (p : PortRef) :
    (port p).Ends P right fun r => ∀ q, r = .ok q →
      ∃ n, g.node? p.node = some n ∧ (g.shown n).find? (Graph.isNamed p) = some q := by
  refine .bind (.query (hP p.node)) fun ps hps => ?_
  obtain rfl := hg.ports hps
  cases hn : g.node? p.node with
  | none => exact .pure fun _ h => nomatch h
  | some n =>
    simp only [Option.map_some]
    split
    next q hq =>
      refine .pure fun q' h => ⟨n, rfl, ?_⟩
      cases h
      exact hq
    next => exact .pure fun _ h => nomatch h

end Plan

namespace Wire

variable {w : Wire}

theorem ofPorts_roles {p q : PortRef} (h : ofPorts p q = .ok w) :
    w.src.role.isSource = true ∧ w.dest.role.isSource = false := by
  unfold ofPorts at h
  split at h
  · cases h
  split at h
  · cases h
  dsimp only at h
  split at h
  all_goals
    split at h
    · cases h
    · cases h
      simp_all

theorem existing_yields (hw : g.WellFormed) (hg : g.Answers right) (hP : ∀ id, P (.ports id))
    (p : PortRef) :
    Plan.Yields P right
      (fun q => g.Shows p ∧ ∃ s, g.resolve p = .ok s ∧ (s.mode ≠ .duplicate → q.mode = s.mode))
      (existing p) := by
  refine .bind (.lift (Plan.port_ends hg hP p)) fun r hr => ?_
  cases r with
  | error _ => exact .throw _
  | ok q =>
    obtain ⟨n, hn, hq⟩ := hr q rfl
    obtain ⟨s, hs, hm⟩ := Graph.port?_of_find?_shown (hw.node_id hn) hq
    refine .pure ⟨⟨n, q, hn, List.mem_of_find?_eq_some hq, List.find?_some hq⟩, s, ?_, hm⟩
    simp [Graph.resolve, Graph.requireNode, hn, hs, bind, Except.bind]

theorem vacant_yields {Q : Unit → Prop} (m : PortMode) {conns : Plan (List Connection)}
    {cs : List Connection} (hc : conns.Ends P right (· = cs))
    {next fail : ExceptT Rejection Plan Unit}
    (hn : (m = .single → cs = []) → Plan.Yields P right Q next)
    (hf : Plan.Yields P right Q fail) :
    Plan.Yields P right Q
      (if m = .single then do
        let cs ← (conns : Plan _)
        if cs.isEmpty then next else fail
      else next) := by
  split
  next hm =>
    refine .bind (.lift hc) fun cs' hcs => ?_
    subst hcs
    split
    · exact hn fun _ => List.isEmpty_iff.1 ‹_›
    · exact hf
  next hm => exact hn fun h => absurd h hm

theorem checkCardinality_yields (hg : g.Answers right)
    (hinto : ∀ id key, P (.connectionsInto id key)) (hfrom : ∀ id key, P (.connectionsFrom id key))
    (w : Wire) (src dest : PortMode) :
    Plan.Yields P right
      (fun _ => ¬(src = .multiple ∧ dest = .multiple) ∧
        (dest = .single → g.connectionsInto w.dest.node w.dest.key = []) ∧
        (src = .single → g.connectionsFrom w.src.node w.src.key = []))
      (w.checkCardinality src dest) := by
  unfold checkCardinality
  dsimp only
  split
  · exact .bind (.throw (Q := fun _ => False) _) fun _ h => h.elim
  next hb =>
    refine vacant_yields dest
      ((Plan.Ends.query (hinto w.dest.node w.dest.key)).mono fun _ h => hg.connectionsInto h)
      (fun hd => vacant_yields src
        ((Plan.Ends.query (hfrom w.src.node w.src.key)).mono fun _ h => hg.connectionsFrom h)
        (fun hs => .pure ⟨hb, hd, hs⟩) (.throw _)) ?_
    exact .bind (.throw (Q := fun _ => False) _) fun _ h => h.elim

/-- A wire that is accepted joins ports that are shown, and is `Wire.Admitted` by their groups. Each
part of `Wire.check` says its share: `existing_yields`, `vacant_yields`, `checkCardinality_yields`.
-/
theorem check_yields (hw : g.WellFormed) (hg : g.Answers right) (hP : ∀ q, P q) (p q : PortRef) :
    Plan.Yields P right
      (fun w => (∃ s t, w.Admitted g s t) ∧ g.Shows w.src ∧ g.Shows w.dest) (check g p q) := by
  unfold check
  refine .bind (.ofExcept fun _ h => h) fun w hwire => ?_
  obtain ⟨hs, ht⟩ := ofPorts_roles hwire
  refine .bind (existing_yields hw hg (fun _ => hP _) w.src) fun a ha => ?_
  obtain ⟨hshows, s, hsrc, hsm⟩ := ha
  refine .bind (existing_yields hw hg (fun _ => hP _) w.dest) fun b hb => ?_
  obtain ⟨hshows', t, hdest, htm⟩ := hb
  refine .bind (checkCardinality_yields hg (fun _ _ => hP _) (fun _ _ => hP _) w _ _)
    fun _ hroom => ?_
  obtain ⟨hb, hd, hu⟩ := hroom
  have hadmitted : w.Admitted g s t := by
    refine ⟨hsrc, hdest, hs, ht, fun h => hb ?_, fun h => hd ?_, fun h => hu ?_⟩
    · rw [hsm (by simp [h.1]), htm (by simp [h.2])]
      exact h
    · rw [htm (by simp [h]), h]
    · rw [hsm (by simp [h]), h]
  split
  · exact .bind (.throw (Q := fun _ => False) _) fun _ h => h.elim
  · refine .bind (.lift (Plan.Within.all hP _)) fun r _ => ?_
    cases r with
    | some r => exact .throw r
    | none => exact .pure ⟨⟨s, t, hadmitted⟩, hshows, hshows'⟩

end Wire

section Verdict

variable {o : Precedence} {e : Engine} {t : Memo.Table} {p q : PortRef} {w : Wire}
  (hg : e.graph.WellFormed) (ht : e.Sound o Query.AboutStore t)
  (h : (e.perform (Wire.check e.graph p q).run t).1 = .ok w)

include hg ht h

/-- Whatever a verdict asks for, an accepted wire is admitted: by `Wire.check_yields`, as the graph
is asked about rightly in any case. -/
theorem Engine.admitted_of_check : ∃ s t, w.Admitted e.graph s t :=
  (storeDomain.perform_ends store_apart
    (Wire.check_yields hg answers_right.about_store (fun _ => trivial) p q) ht w h).1

theorem Engine.shows_of_check : e.graph.Shows w.src ∧ e.graph.Shows w.dest :=
  (storeDomain.perform_ends store_apart
    (Wire.check_yields hg answers_right.about_store (fun _ => trivial) p q) ht w h).2

end Verdict

end Dataflow
