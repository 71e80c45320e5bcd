import Dataflow.Proofs.Engine.Objects
import Dataflow.Proofs.Session.Built
import Dataflow.Proofs.Session.Values

/-! In sessions over the kinds of nodes that there are from the outset, changed by batches alone,
the value of an object that is fed by pairs has the fields that its type has. The argument is in
`Engine.FedByPairs.fields`. -/

namespace Dataflow

namespace Session

variable {s : Session} {id : NodeId} {n : Node} {key : String}

theorem valueAt_ask (hn : s.graph.node? id = some n) (key : String) : valueAt id key s =
    (.ok (s.engine.ask (.value id (.root .root) key) s.table).1,
      { s with table := (s.engine.ask (.value id (.root .root) key) s.table).2 }) :=
  valueAt_eq (Option.isSome_iff_exists.2 ⟨n, hn⟩) key

theorem Edited.outputType_eq (h : s.Edited (· = .builtin)) (id : NodeId) (key : String) :
    (Session.perform (Plan.outputType id key .root) s).1 = s.engine.produced id key :=
  perform_eval h.reached h.proper.typed fun _ => .query (q := .outputType id key .root) trivial

/-- After a node was asked for its value afresh, what feeds it is found to have the value that it
has afresh, provided that the node neither iterates nor collects and is found in order. -/
theorem valueAt_after {o : Precedence} (h : s.Edited (· = .builtin)) (ht : s.engine.Tame o id)
    (hn : s.graph.node? id = some n) (hi : s.engine.isIterator id = false)
    (hc : s.engine.isCollector id = false) {c : Connection}
    (hfeeds : s.graph.Feeds c.src.node id) (key : String) :
    (valueAt c.src.node c.src.key (valueAt id key s.forget).2).1 =
      (valueAt c.src.node c.src.key s.forget).1 := by
  have hproper := h.proper
  have hdomain := Engine.valueDomain hproper.wellFormed ht
    (hproper.all Catalogue.builtin_layered) (hproper.all Catalogue.builtin_flowing)
  have hwithin : (Plan.value c.src.node (.root .root) c.src.key).Within (s.engine.AboutValue o id)
      (s.engine.Right o) := by
    refine .query (q := .value c.src.node (.root .root) c.src.key)
      ⟨⟨[], .input .root hi hc hfeeds, fun x => ?_⟩, Engine.fits_root⟩
    simp [Scope.isBound_eq_isSome]
  have hsound := hdomain.perform_sound (value_within s.engine id key) (t := s.forget.table)
    (.of_empty rfl)
  rw [valueAt_eq (s := s.forget) (Option.isSome_iff_exists.2 ⟨n, hn⟩) key]
  refine (performAt_fst ..).trans (Eq.trans ?_ (performAt_fst ..).symm)
  refine congrArg (fun v => (s.graph.requireNode c.src.node).bind fun _ => .ok v) ?_
  exact hdomain.perform_fst hwithin hsound (.of_empty rfl)

/-- An object that is fed by pairs alone has, when nothing is remembered, the fields that its type
has, and these have the names of the pairs, but for blank ones (`Graph.Names`). Under each name both
take the field from the same pair, the one of the highest slot (`Graph.NamesLast`): the value that
its own value holds, and the type that its own type has for that. If the object is found in order,
in the sense of `Engine.Tame`, the pair has this value afresh, too.

The values are those that the table has after the object was asked for (`value_object`), and the
fields are then the same by `FedByPairs.fields`. -/
theorem object_fields (h : s.Edited (· = .builtin)) (hn : s.graph.node? id = some n)
    (ho : n.IsCore "Object") (hp : ∀ c ∈ s.graph.connectionList, c.dest.node = id →
      ∃ m, s.graph.node? c.src.node = some m ∧ m.IsCore "Pair") (port : String) :
    ∃ fs ts, (valueAt id port s.forget).1 = .ok (.object fs) ∧
      (perform (Plan.outputType id port .root) s).1 = .object ts ∧
      fs.map Prod.fst = ts.map Prod.fst ∧
      (∀ name, name ∈ fs.map Prod.fst ↔ name ≠ "" ∧ ∃ c m, s.graph.Names id name c m) ∧
      ∀ name ∈ fs.map Prod.fst, ∃ c m v t, s.graph.NamesLast id name c m ∧
        (name, v) ∈ fs ∧ (name, t) ∈ ts ∧
        (valueAt c.src.node c.src.key (valueAt id port s.forget).2).1 =
          .ok (.pair (m.textParam "key") v) ∧
        (perform (Plan.outputType c.src.node c.src.key .root) s).1 = .pair t ∧
        ∀ o : Precedence, s.engine.Tame o id → (valueAt c.src.node c.src.key s.forget).1 =
          .ok (.pair (m.textParam "key") v) := by
  have hproper := h.proper
  have hkind {m : Node} {type : String} (hm : m.IsCore type) :
      s.engine.definition m = Catalogue.builtin.definition "Core" type := by
    rw [Engine.definition, Catalogue.definitionOf, hm.1, hm.2, hproper.catalogue]
  have hd : s.engine.definition n = .object := hkind ho
  have hpairs : s.engine.FedByPairs id := fun c hc hdest => by
    obtain ⟨m, hm, hpair⟩ := hp c hc hdest
    exact ⟨m, hm, hkind hpair⟩
  have hvalue := hproper.value_object hn hd (t := s.forget.table) rfl port
  obtain ⟨fs, ts, hfs, hts, hnames, hmem, hfields⟩ := hpairs.fields hproper hn hd hvalue port
  have hask : valueAt id port s.forget = _ := valueAt_ask (s := s.forget) hn port
  refine ⟨fs, ts, ?_, (h.outputType_eq id port).trans hts, hnames, hmem, fun name hname => ?_⟩
  · rw [hask]
    exact congrArg Except.ok hfs
  obtain ⟨c, m, hm, hv, ht⟩ := hfields name hname
  have hc : c ∈ s.graph.connectionsInto id "input" :=
    (hproper.into_object hn hd).2 ⟨hm.mem, hm.dest⟩
  obtain ⟨m', hm', hpair⟩ := hpairs.source hproper hn hd hc
  cases hm.source.symm.trans hm'
  have hafter : (valueAt c.src.node c.src.key (valueAt id port s.forget).2).1 =
      .ok (.pair (m.textParam "key") (s.engine.supplied (s.engine.ask (.value id (.root .root) port)
        s.forget.table).2 c).payload) := by
    rw [hask, valueAt_ask (s := { s.forget with table := _ }) hm.source]
    exact congrArg Except.ok (hvalue.2 c hc m hm.source hpair)
  refine ⟨c, m, _, _, hm, hv, ht, hafter, ?_, fun {_} htame => ?_⟩
  · exact (h.outputType_eq ..).trans (hproper.produced_pair hm.source hpair _)
  · have hplain : s.engine.isIterator id = false ∧ s.engine.isCollector id = false := by
      rw [Engine.isIterator, Engine.isCollector, show s.engine.graph.node? id = some n from hn,
        Option.any_some, Option.any_some, hd]
      exact ⟨rfl, rfl⟩
    have hfeeds := hproper.wellFormed.feeds_of_mem_connectionsInto hc
    exact (valueAt_after h htame hn hplain.1 hplain.2 hfeeds port).symm.trans hafter

/-! ## Pairs of one name -/

/-- Two pairs are named alike but for white space, and a third one is blank. The first one is taken
from its slot and put back there after the other two. -/
def taggedSteps : List Step :=
  let pair (key : String) : Step :=
    .change (.addNode "Core" "Pair" ((∅ : Params).insert "key" (.text key))) false
  let wire (a b : Nat) : Step :=
    .change (.connect ⟨⟨a⟩, "output", .output, 0⟩ ⟨⟨b⟩, "input", .input, 0⟩) false
  [pair "a", pair " a ", pair " ", .change (.addNode "Core" "Object" ∅) false,
    .change (.addNode "Core" "Number" ∅) false, wire 2 3, wire 0 3, wire 1 3, wire 4 1,
    .change (.disconnect ⟨1⟩) false, wire 0 3]

def tagged : Session := built taggedSteps

def taggedObject : Node := ⟨⟨3⟩, "Core", "Object", ∅, NodeDefinition.object.ports⟩

/-- The pair of the highest slot. -/
def taggedPair : Node :=
  ⟨⟨1⟩, "Core", "Pair", (∅ : Params).insert "key" (.text " a "), NodeDefinition.pair.ports⟩

def taggedWire : Connection := ⟨⟨2⟩, ⟨⟨1⟩, "output", .output, 0⟩, ⟨⟨3⟩, "input", .input, 2⟩⟩

def taggedFits (g : Graph) : Bool :=
  g.node? ⟨3⟩ = some taggedObject ∧ g.node? ⟨1⟩ = some taggedPair ∧ taggedWire ∈ g.connectionList ∧
    ∀ c ∈ g.connectionList, c.dest.node = ⟨3⟩ → c.dest.slot ≤ 2 ∧
      (g.node? c.src.node).any fun m => m.IsCore "Pair"

theorem taggedFits_tagged : taggedFits tagged.graph = true := by
  refine built_of_within (d := 16) taggedFits taggedSteps ?_
  decide +kernel

/-- The one field is that of the pair whose name is longer. -/
theorem tagged_object_fields : ∃ fs ts v t,
    (valueAt ⟨3⟩ "output" tagged.forget).1 = .ok (.object fs) ∧
      (perform (Plan.outputType ⟨3⟩ "output" .root) tagged).1 = .object ts ∧
      fs.map Prod.fst = ts.map Prod.fst ∧ ("a", v) ∈ fs ∧ ("a", t) ∈ ts ∧
      (valueAt ⟨1⟩ "output" (valueAt ⟨3⟩ "output" tagged.forget).2).1 = .ok (.pair " a " v) ∧
      (perform (Plan.outputType ⟨1⟩ "output" .root) tagged).1 = .pair t := by
  obtain ⟨hobject, hpair, hwire, hinto⟩ := of_decide_eq_true taggedFits_tagged
  obtain ⟨fs, ts, hfs, hts, hnames, hmem, hfields⟩ := object_fields (s := tagged)
    (built_edited taggedSteps) hobject (by decide) (fun c hc hdest => by
      obtain ⟨m, hm, hcore⟩ := (Option.any_eq_true ..).1 (hinto c hc hdest).2
      exact ⟨m, hm, of_decide_eq_true hcore⟩) "output"
  have hnamed : tagged.graph.Names ⟨3⟩ "a" taggedWire taggedPair :=
    ⟨hwire, rfl, hpair, by decide +kernel⟩
  obtain ⟨c, m, v, t, hm, hv, ht, hvalue, htype, -⟩ :=
    hfields "a" ((hmem "a").2 ⟨by decide, _, _, hnamed⟩)
  obtain rfl : taggedWire = c := by
    by_contra hne
    have hlast := hm.last taggedWire taggedPair hnamed hne
    exact absurd (hinto c hm.mem hm.dest).1 (Nat.not_le.2 hlast)
  cases hpair.symm.trans hm.source
  exact ⟨fs, ts, v, t, hfs, hts, hnames, hv, ht, hvalue, htype⟩

end Session

end Dataflow
