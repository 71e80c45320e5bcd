import Dataflow.Proofs.Engine.Rewiring
import Dataflow.Proofs.Session.Built
import Dataflow.Proofs.Session.Schema

/-! When an accepted connection leaves all types fitting (`Engine.Matches`).

A connection is accepted for the types at its own two ends, as they are before. What it changes
elsewhere is not asked for; it can matter only where two connections meet (`Engine.Contested`). -/

namespace Dataflow.Session

variable {s : Session} {p q : PortRef} {c : Connection}

/-- The types fit at the ends of a connection that is accepted. -/
theorem matches_of_connect (h : s.Reached) (hc : s.catalogue.Typed)
    (hok : (connect p q s).1 = .ok c) : s.engine.Matches c := by
  obtain ⟨w, hw, -⟩ := connect_ok h.wellFormed hok
  have hends := Edit.connect_foretold (o := .last) (e := s.openEdit) h.wellFormed (.of_empty rfl)
    p q
  rw [← connect_fst, hok, show (s.openEdit.engine.perform (Wire.check s.openEdit.graph p q).run
    s.openEdit.scratch).1 = .ok w from hw] at hends
  obtain ⟨hsrc, hdest⟩ := hends
  rw [(Engine.typesDomain (o := .last) hc fun _ => id).perform_eval (Wire.check_within ..)
    (.of_empty rfl), Plan.eval_eq_run] at hw
  obtain ⟨-, -, _, hnone⟩ := Wire.check_ok hw
  have hfits := Wire.disagreement?_eq_none.1 ((Plan.eval_eq_run _).trans hnone)
  rw [Engine.Matches, hsrc, hdest]
  exact hfits

/-- The audit finds the connections along which the types do not fit. -/
theorem matches_or_found (h : s.Reached) (hc : s.catalogue.Typed) {k : ConnectionId}
    (hk : s.graph.connection? k = some c) :
    s.engine.Matches c ∨ ∃ r, (c, r) ∈ (invalidConnections s).1 := by
  rw [invalidConnections_eval h hc]
  cases hr : (Wire.disagreement? ⟨c.src, c.dest⟩).eval s.engine.reply with
  | none => exact .inl (Wire.disagreement?_eq_none.1 hr)
  | some r => exact .inr ⟨r, Graph.mem_invalidConnections.2 ⟨h.wellFormed.mem_list hk, hr⟩⟩

theorem invalidConnections_eq_nil (h : s.Reached) (hc : s.catalogue.Typed)
    (hall : ∀ {k c}, s.graph.connection? k = some c → s.engine.Matches c) :
    (invalidConnections s).1 = [] := by
  rw [invalidConnections_eval h hc, Graph.invalidConnections_eq_nil]
  exact fun c hmem => Wire.disagreement?_eq_none.2 (hall (h.wellFormed.mem_connectionList.1 hmem))

theorem rewired_of_connect (h : s.Edited (· = .builtin)) (hvalid : (invalidConnections s).1 = [])
    (hok : (connect p q s).1 = .ok c) :
    s.engine.Rewired (connect p q s).2.engine c := by
  have hg := h.reached.wellFormed
  have hc : s.catalogue.Typed := h.proper.typed
  obtain ⟨w, -, hins, hgraph⟩ := connect_ok hg hok
  refine ⟨h.proper, (h.connect p q).proper, hgraph,
    (Graph.insertConnection_ok hins).1 ▸ hg.not_connection_next, fun {k d} hd => ?_⟩
  rw [show (connect p q s).2.engine.graph = s.graph.joined c from hgraph] at hd
  rcases Graph.connection?_joined_cases hd with ⟨-, rfl⟩ | hd
  · exact matches_of_connect h.reached hc hok
  · exact (matches_or_found h.reached hc hd).resolve_right fun ⟨r, hr⟩ => by simp [hvalid] at hr

/-- An array over which is iterated, and the elements go into a sum. -/
def benchSteps : List Step :=
  [.change (.addNode "Core" "Number" ∅) false, .change (.addNode "Core" "Array" ∅) false,
    .change (.addNode "Core" "Iterate" ∅) false, .change (.addNode "Math" "Add" ∅) false,
    .change (.connect ⟨⟨1⟩, "output", .output, 0⟩ ⟨⟨2⟩, "input", .input, 0⟩) false,
    .change (.connect ⟨⟨2⟩, "output", .output, 0⟩ ⟨⟨3⟩, "lhs", .input, 0⟩) false]

def bench : Session := built benchSteps

/-- A number goes into the array. -/
def benchWire : Connection := ⟨⟨2⟩, ⟨⟨0⟩, "output", .output, 0⟩, ⟨⟨1⟩, "input", .input, 0⟩⟩

/-- The audit finds nothing, the connection is made, and no two connections meet then. -/
def benchFits (g : Graph) : Bool :=
  auditWithin 16 g = some [] ∧
    connectWithin 16 benchWire.src benchWire.dest g = some (.ok (.connection benchWire)) ∧
    ∀ c ∈ (g.joined benchWire).connectionList, ∀ d ∈ (g.joined benchWire).connectionList,
      ¬(g.joined benchWire).Meet d c

theorem benchFits_bench : benchFits bench.graph = true := by
  refine built_of_within (d := 16) benchFits benchSteps ?_
  decide +kernel

/-- The audit of a session finds nothing, a connection is accepted, and then the audit finds others,
which are told by their numbers. -/
def Breaks (s : Session) (c : Connection) (found : List Nat) : Prop :=
  s.Edited (· = .builtin) ∧ (invalidConnections s).1 = [] ∧ (connect c.src c.dest s).1 = .ok c ∧
    (invalidConnections (connect c.src c.dest s).2).1.map (·.1.id.index) = found

/-- As `Breaks`, for a graph. -/
def breaksWithin (d : Nat) (c : Connection) (found : List Nat) (g : Graph) : Bool :=
  auditWithin d g = some [] ∧ connectWithin d c.src c.dest g = some (.ok (.connection c)) ∧
    (auditWithin d (g.joined c)).map (List.map (·.1.id.index)) = some found

theorem breaks_of_within {d : Nat} {steps : List Step} {found : List Nat}
    (h : breaksWithin d c found (built steps).graph) : Breaks (built steps) c found := by
  obtain ⟨haudit, hconnect, hfound⟩ := of_decide_eq_true h
  have hok := connect_of_within hconnect
  have hengine := connect_built hok
  obtain ⟨found', hfound', rfl⟩ := Option.map_eq_some_iff.1 hfound
  refine ⟨built_edited steps, invalidConnections_of_within (built_edited _) (built_engine _) haudit,
    hok, ?_⟩
  have hgraph : (connect c.src c.dest (built steps)).2.graph = (built steps).graph.joined c :=
    congrArg Engine.graph hengine
  rw [invalidConnections_of_within ((built_edited steps).connect ..) (hgraph ▸ hengine)
    (hgraph ▸ hfound')]

/-- A pair with a number in it goes into an array, and so does a pair with nothing in it yet. -/
def clashSteps : List Step :=
  [.change (.addNode "Core" "Number" ∅) false, .change (.addNode "Core" "Pair" ∅) false,
    .change (.addNode "Core" "Array" ∅) false, .change (.addNode "Core" "Pair" ∅) false,
    .change (.addNode "Core" "String" ∅) false,
    .change (.connect ⟨⟨0⟩, "output", .output, 0⟩ ⟨⟨1⟩, "input", .input, 0⟩) false,
    .change (.connect ⟨⟨1⟩, "output", .output, 0⟩ ⟨⟨2⟩, "input", .input, 0⟩) false,
    .change (.connect ⟨⟨3⟩, "output", .output, 0⟩ ⟨⟨2⟩, "input", .input, 1⟩) false]

/-- A text goes into the second pair. -/
def clashWire : Connection := ⟨⟨3⟩, ⟨⟨4⟩, "output", .output, 0⟩, ⟨⟨3⟩, "input", .input, 0⟩⟩

/-- What an iteration over nothing yet gives out goes into an array and into a sum. -/
def forkSteps : List Step :=
  [.change (.addNode "Core" "Iterate" ∅) false, .change (.addNode "Core" "Array" ∅) false,
    .change (.addNode "Math" "Add" ∅) false, .change (.addNode "Core" "Iterate" ∅) false,
    .change (.addNode "Core" "Iterate" ∅) false,
    .change (.connect ⟨⟨0⟩, "output", .output, 0⟩ ⟨⟨1⟩, "input", .input, 0⟩) false,
    .change (.connect ⟨⟨0⟩, "output", .output, 0⟩ ⟨⟨2⟩, "lhs", .input, 0⟩) false,
    .change (.connect ⟨⟨3⟩, "output", .output, 0⟩ ⟨⟨4⟩, "input", .input, 0⟩) false]

/-- The array is iterated over, and so are its items. -/
def forkWire : Connection := ⟨⟨3⟩, ⟨⟨1⟩, "output", .output, 0⟩, ⟨⟨3⟩, "input", .input, 0⟩⟩

end Dataflow.Session
