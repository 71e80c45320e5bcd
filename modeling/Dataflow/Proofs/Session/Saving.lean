import Dataflow.Proofs.Session.Built
import Dataflow.Proofs.Snapshot.Codec

/-! What is saved of a session can be read again, as long as its numbers are finite.

A parameter that is a number may be set to any number there is, an infinity or an undefined one as
well. These have no text, and where one of them is saved the whole snapshot is lost
(`Snapshot.ofText?_toText`). -/

namespace Dataflow

/-- Numbers and slots are those of a machine word of their kind. -/
structure Graph.InWidth (g : Graph) : Prop where
  nodes : g.nextNode ≤ idBound
  connections : g.nextConnection ≤ idBound
  slots : ∀ c ∈ g.connectionList, c.src.slot < countBound ∧ c.dest.slot < countBound

instance (g : Graph) : Decidable g.InWidth :=
  decidable_of_iff (g.nextNode ≤ idBound ∧ g.nextConnection ≤ idBound ∧
      ∀ c ∈ g.connectionList, c.src.slot < countBound ∧ c.dest.slot < countBound)
    ⟨fun ⟨hn, hc, hs⟩ => ⟨hn, hc, hs⟩, fun h => ⟨h.nodes, h.connections, h.slots⟩⟩

namespace Session

variable {s : Session}

/-- Both ends of a connection are nodes, and the number of a node was given away before. -/
theorem snapshot_fits (hg : s.graph.WellFormed) (hw : s.graph.InWidth)
    (hv : s.version < countBound) : s.snapshot.Fits where
  version := hv
  nodes n hn := by
    obtain ⟨id, hid⟩ := Tables.mem_values.1 hn
    rw [hg.node_id hid]
    exact Nat.lt_of_lt_of_le (hg.node_lt hid) hw.nodes
  connections c hc := by
    have hk := hg.mem_connectionList.1 hc
    have hend {id : NodeId} (ht : Graph.Touches c id) : id.index < idBound := by
      obtain ⟨n, hn⟩ := Option.isSome_iff_exists.1 (hg.ends hk ht)
      exact Nat.lt_of_lt_of_le (hg.node_lt hn) hw.nodes
    exact {
      id := Nat.lt_of_lt_of_le (hg.connection_lt hk) hw.connections
      src := hend (.inl rfl)
      srcSlot := (hw.slots c hc).1
      dest := hend (.inr rfl)
      destSlot := (hw.slots c hc).2 }

/-- Whatever has become of a session, if all numbers among its parameters are finite, then its
snapshot is read back from its text just as it was; and if one of them is not, then this text cannot
be read. Both are `Snapshot.ofText?_toText`, as the numbers of a session are within their widths
(`snapshot_fits`). -/
theorem saved_reads_back (h : s.Reached) (hw : s.graph.InWidth) (hv : s.version < countBound)
    (hr : ∀ n ∈ s.graph.nodeList, n.ReadsBack) :
    ((∀ n ∈ s.graph.nodeList, n.isFinite) →
        Snapshot.ofText? s.snapshot.toText = some s.snapshot) ∧
      ((∃ n ∈ s.graph.nodeList, ¬n.isFinite) →
        Snapshot.ofText? s.snapshot.toText = none) := by
  rw [Snapshot.ofText?_toText (snapshot_fits h.wellFormed hw hv) hr]
  refine ⟨fun hall => if_pos (List.all_eq_true.2 hall), fun hsome => if_neg ?_⟩
  rw [Bool.not_eq_true]
  exact List.all_eq_false.2 hsome

/-! ## Numbers that are saved -/

/-- A number and a text go into an array; then both are set anew. -/
def ledgerSteps (x : Float) : List Step :=
  [.change (.addNode "Core" "Number" ∅) false, .change (.addNode "Core" "String" ∅) false,
    .change (.addNode "Core" "Array" ∅) false,
    .change (.connect ⟨⟨0⟩, "output", .output, 0⟩ ⟨⟨2⟩, "input", .input, 0⟩) false,
    .change (.setParam ⟨0⟩ "value" (.number x)) false,
    .change (.setParam ⟨1⟩ "value" (.text "a \"b\"\n\\ é")) false]

def ledger (x : Float) : Session := built (ledgerSteps x)

theorem ledger_reached (x : Float) : (ledger x).Reached := (built_edited _).reached

/-- Whether a graph is within the widths and its finite numbers are read back, and whether all of
its numbers are finite. -/
def savable (g : Graph) : Bool × Bool :=
  (decide (g.InWidth ∧ ∀ n ∈ g.nodeList, n.ReadsBack), g.nodeList.all Node.isFinite)

theorem savable_ledger : savable (ledger 6.02e23).graph = (true, true) ∧
    savable (ledger (0.0 / 0.0)).graph = (true, false) := by
  refine ⟨built_of_within (d := 12) savable (ledgerSteps _) ?_,
    built_of_within (d := 12) savable (ledgerSteps _) ?_⟩ <;>
    decide +kernel

theorem version_built (steps : List Step) : (built steps).version < countBound := by
  have hcommit (e : Edit) : ((start .default .builtin).commit e).version ≤ 1 := by
    rw [commit_version]
    split <;> decide
  rw [built, editAll_snd]
  split
  · exact Nat.lt_of_le_of_lt (hcommit _) (by decide)
  · exact show 0 < countBound by decide

/-- With a large number the session is read back, and with an undefined one it is not. -/
theorem ledger_reads_back :
    Snapshot.ofText? (ledger 6.02e23).snapshot.toText = some (ledger 6.02e23).snapshot ∧
      Snapshot.ofText? (ledger (0.0 / 0.0)).snapshot.toText = none := by
  have hlarge := Prod.mk.inj savable_ledger.1
  have hundefined := Prod.mk.inj savable_ledger.2
  obtain ⟨hw, hr⟩ := of_decide_eq_true hlarge.1
  obtain ⟨hw', hr'⟩ := of_decide_eq_true hundefined.1
  refine ⟨(saved_reads_back (ledger_reached _) hw (version_built _) hr).1 ?_,
    (saved_reads_back (ledger_reached _) hw' (version_built _) hr').2 ?_⟩
  · exact List.all_eq_true.1 hlarge.2
  · exact List.all_eq_false.1 hundefined.2

/-- Not every session is read back, though its numbers keep to their widths and the finite ones are
read back on their own. -/
theorem not_all_read_back : ¬∀ s : Session, s.Reached → s.graph.InWidth → s.version < countBound →
    (∀ n ∈ s.graph.nodeList, n.ReadsBack) →
      Snapshot.ofText? s.snapshot.toText = some s.snapshot := by
  intro hall
  obtain ⟨hsavable, hundefined⟩ := Prod.mk.inj savable_ledger.2
  obtain ⟨hw, hr⟩ := of_decide_eq_true hsavable
  have hread := hall _ (ledger_reached _) hw (version_built _) hr
  rw [Snapshot.ofText?_toText (snapshot_fits (ledger_reached _).wellFormed hw (version_built _)) hr,
    if_neg (Bool.not_eq_true _ ▸ hundefined)] at hread
  cases hread

end Session

end Dataflow
