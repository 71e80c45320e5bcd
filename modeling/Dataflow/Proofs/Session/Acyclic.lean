import Dataflow.Proofs.Engine.Run
import Dataflow.Proofs.Graph.Acyclic
import Dataflow.Proofs.Session.Reached
import Dataflow.Proofs.Wiring

/-! No change closes a cycle (`Move.acyclic`), and nothing is refused as a cycle that would not be
one (`onCycle_of_check`). -/

namespace Dataflow

open Relation (ReflTransGen TransGen)
open Memo (Table)

variable {e : Engine} {t : Table} {c : Change} {f : Effect}

/-- The connection lies on a cycle: a path leads from its destination back to its source. -/
def Graph.OnCycle (g : Graph) (c : Connection) : Prop :=
  g.connection? c.id = some c ∧ ReflTransGen g.Feeds c.dest.node c.src.node

theorem Graph.OnCycle.transGen {g : Graph} {c : Connection} (h : g.OnCycle c) :
    TransGen g.Feeds c.src.node c.src.node :=
  .head' ⟨c.id, c, h.1, rfl, rfl⟩ h.2

theorem Move.acyclic (m : Move e t c f) (hg : e.graph.WellFormed) (ha : e.graph.Acyclic) :
    f.graph.Acyclic := by
  cases m with
  | addNode => exact ha.of_subset fun _ _ h => h
  | removeNode hn => exact ha.of_subset fun _ _ h => (hg.connection?_without_connectionsOf.1 h).1
  | connect hw hc =>
    obtain ⟨-, hback, -⟩ := Wire.check_ok hw
    obtain ⟨-, hs, hd, -⟩ := Graph.insertConnection_ok hc
    refine ha.joined fun hp => hback ?_
    rw [hs, hd] at hp
    exact hg.mem_upstream.2 ⟨_, List.mem_singleton_self _, hp⟩
  | disconnect hc =>
    refine ha.of_subset fun k d h => ?_
    rw [Graph.connection?_severed] at h
    split at h
    · cases h
    · exact h
  | setParam hn => exact ha.of_subset fun _ _ h => h

namespace Session

variable {s : Session}

/-- Makes several batches of changes, one after the other. -/
def editBatches (batches : List (List Step)) (s : Session) : Session :=
  batches.foldl (fun s steps => (editAll steps s).2) s

theorem editAll_acyclic (hg : s.graph.WellFormed) (ha : s.graph.Acyclic) (steps : List Step) :
    (editAll steps s).2.graph.Acyclic :=
  editAll_preserves hg (fun _ hg ha hf => (Change.move hg hf).acyclic hg ha) ha steps

theorem editBatches_acyclic (hg : s.graph.WellFormed) (ha : s.graph.Acyclic)
    (batches : List (List Step)) : (editBatches batches s).graph.Acyclic := by
  induction batches generalizing s with
  | nil => exact ha
  | cons steps batches ih => exact ih (editAll_wellFormed hg steps) (editAll_acyclic hg ha steps)

theorem check_fst (p q : PortRef) (s : Session) :
    (check p q s).1 = (s.engine.perform (Wire.check s.graph p q).run s.table).1 := rfl

theorem onCycle_of_check (hg : s.graph.WellFormed) {p q : PortRef}
    (h : (check p q s).1 = .error .cycle) :
    ∃ w, Wire.ofPorts p q = .ok w ∧ ReflTransGen s.graph.Feeds w.dest.node w.src.node ∧
      ∀ c g, s.graph.insertConnection w.src w.dest = .ok (c, g) → g.OnCycle c := by
  obtain ⟨w, hw, hback⟩ := Wire.check_cycle (show
    (Plan.run s.engine.ask (Wire.check s.graph p q).run s.table).1 = .error .cycle from h)
  obtain ⟨_, ha, hp⟩ := hg.mem_upstream.1 hback
  obtain rfl := List.mem_singleton.1 ha
  refine ⟨w, hw, hp, fun c g hc => ?_⟩
  obtain ⟨hid, hs, hd, rfl, -⟩ := Graph.insertConnection_ok hc
  rw [← hs, ← hd] at hp
  have fresh : s.graph.connection? c.id = none := hid ▸ hg.not_connection_next
  exact ⟨by simp, ReflTransGen.mono (fun _ _ h => Graph.Feeds.joined fresh h) _ _ hp⟩

/-- Without a cycle to begin with there is none after any batches of changes (`Graph.Acyclic`), and
two ports are refused as closing a cycle only if their connection would lie on one
(`Graph.OnCycle`).

For batches this goes by `editAll_preserves`, from what one change does (`Move.acyclic`). -/
theorem connections_close_no_cycle (h : s.Reached) :
    (s.graph.Acyclic → ∀ batches, (editBatches batches s).graph.Acyclic) ∧
      ∀ p q, (check p q s).1 = .error .cycle →
        ∃ w, Wire.ofPorts p q = .ok w ∧ ReflTransGen s.graph.Feeds w.dest.node w.src.node ∧
          ∀ c g, s.graph.insertConnection w.src w.dest = .ok (c, g) → g.OnCycle c :=
  ⟨fun ha batches => editBatches_acyclic h.wellFormed ha batches,
    fun _ _ hc => onCycle_of_check h.wellFormed hc⟩

/-- Two nodes in a row, taken over from a snapshot. -/
def row : Session :=
  let pair (id : NodeId) : Node := ⟨id, "Core", "Pair", ∅, NodeDefinition.pair.ports⟩
  (load ⟨"row", 1, [pair ⟨0⟩, pair ⟨1⟩],
    [⟨⟨0⟩, ⟨⟨0⟩, "output", .output, 0⟩, ⟨⟨1⟩, "input", .input, 0⟩⟩]⟩ (start .default .builtin)).2

/-- The second node of a row may not feed the first. -/
theorem row_check_cycle :
    (check ⟨⟨1⟩, "output", .output, 0⟩ ⟨⟨0⟩, "input", .input, 0⟩ row).1 = .error .cycle := by
  rw [check_fst]
  exact Engine.perform_fst_eq (d := 8) (by decide +kernel)

theorem row_closes_no_cycle :
    (∀ batches, (editBatches batches row).graph.Acyclic) ∧
      ∃ w, Wire.ofPorts ⟨⟨1⟩, "output", .output, 0⟩ ⟨⟨0⟩, "input", .input, 0⟩ = .ok w ∧
        ReflTransGen row.graph.Feeds w.dest.node w.src.node ∧
        ∀ c g, row.graph.insertConnection w.src w.dest = .ok (c, g) → g.OnCycle c := by
  have h : row.Reached := .load _ (.start ..)
  have hrow := connections_close_no_cycle h
  exact ⟨hrow.1 (Graph.acyclic_ofParts NodeId.index (by decide)), hrow.2 _ _ row_check_cycle⟩

end Session

end Dataflow
