import Dataflow.Proofs.Engine.Recall
import Dataflow.Proofs.Reporting
import Dataflow.Proofs.Session.Audit

/-! Whatever a session has gone through and whatever modules it has: where the check of all types
finds an order of the nodes, it accounts for every mismatch that it is told of.

Types that are found by questions about types (`Catalogue.Typed`), or that the session remembers,
are the same whenever they are asked for. So a mismatch of these that `Session.deliveredType` gives
is one that the check is told of. -/

namespace Dataflow

open Memo (Table Key Entry)

/-- A delivered type that is remembered is the answer. -/
theorem Engine.ask_deliveredType_hit {e : Engine} {t : Table} {id : NodeId} {key : String}
    {en : Entry} {type : ValueType}
    (hen : t.entries[Key.inContext .deliveredType id Context.root.key key]? = some en)
    (htype : en.answer = .type type) : (e.ask (.deliveredType id key .root) t).1 = type :=
  ask_recalled rfl ⟨en, type, hen, by rw [htype]; rfl, rfl⟩

/-! ## What a session remembers of its graph -/

namespace Session

variable {s : Session} {id : NodeId} {key : String}

theorem Reached.sound_store {o : Precedence} (h : s.Reached) :
    s.engine.Sound o Query.AboutStore s.table :=
  h.induct (.of_empty ·) (fun hs hk h => hk.sound hs.remembers.rooted h)
    fun _ h => Engine.storeDomain.perform_sound_of_apart Engine.store_apart h

theorem Reached.fits (h : s.Reached) : s.table.Holds Key.Fits :=
  h.induct (.of_empty ·) (fun _ hk h k en hen => h k en (hk.entries k en hen).1)
    fun p h => (Engine.perform_retains _ p _).fits h

/-! ## Reports -/

/-- The delivered type at a key that the check of all types is told when it first asks for it, which
is when it comes to the node. -/
def toldType (s : Session) (id : NodeId) (key : String) : Option ValueType :=
  s.engine.told id key (Typing.check s.catalogue s.graph) s.table

/-- The delivered type at a key is remembered. -/
def RemembersType (s : Session) (id : NodeId) (key : String) : Prop :=
  Key.inContext .deliveredType id Context.root.key key ∈ s.table.entries

/-- After other questions a type is delivered as before, if types are found by questions about types
or if it is remembered. -/
theorem deliveredType_after (h : s.Reached) {n : Node} (hn : s.graph.node? id = some n)
    (hsame : s.catalogue.Typed ∨ s.RemembersType id key) {α : Type} (earlier : Plan α) :
    (deliveredType id key s).1 =
      .ok (s.engine.ask (.deliveredType id key .root) (s.engine.perform earlier s.table).2).1 := by
  have hask {s : Session} (hn : s.graph.node? id = some n) : (deliveredType id key s).1 =
      .ok (s.engine.ask (.deliveredType id key .root) s.table).1 := by
    rw [deliveredType, performAt_fst, Graph.requireNode_ok.2 hn]
    rfl
  rcases hsame with hc | hmem
  · have hlater := hask (s := (perform earlier s).2) hn
    rw [deliveredType_fst (h.perform earlier) hc] at hlater
    rw [deliveredType_fst h hc]
    exact hlater
  · obtain ⟨en, hen⟩ := Option.isSome_iff_exists.1 (Std.ExtTreeMap.isSome_getElem?_iff_mem.2 hmem)
    obtain ⟨type, htype⟩ : ∃ type, en.answer = .type type := by
      have hfit := h.fits _ en hen
      cases hanswer : en.answer <;> simp_all [Key.Fits, Key.inContext]
    have hlater := (Engine.perform_retains s.engine earlier s.table).entries h.fits hen
    rw [hask hn, Engine.ask_deliveredType_hit hen htype, Engine.ask_deliveredType_hit hlater htype]

/-- A text that is iterated over, and what comes of that iterated over once more. -/
def peeled : Session :=
  let text : Node := ⟨⟨0⟩, "Core", "String", ∅, (NodeDefinition.literal .text).ports⟩
  let iterate (id : NodeId) : Node := ⟨id, "Core", "Iterate", ∅, NodeDefinition.iterate.ports⟩
  let wire (k a b : Nat) : Connection :=
    ⟨⟨k⟩, ⟨⟨a⟩, "output", .output, 0⟩, ⟨⟨b⟩, "input", .input, 0⟩⟩
  (load ⟨"peeled", 1, [text, iterate ⟨1⟩, iterate ⟨2⟩], [wire 0 0 1, wire 1 1 2]⟩
    (start .default .builtin)).2

/-- The second iterator delivers a mismatch, and what is found is found at the text. -/
theorem peeled_found : (deliveredType ⟨2⟩ "output" peeled).1 =
      .ok (.mismatch "Iterate expects an Array, got String") ∧
    (typing peeled).1.diagnostics.map (·.node) = [⟨0⟩] := by
  have hperform : (peeled.engine.perform (Plan.deliveredType ⟨2⟩ "output" .root) peeled.table).1 =
      .mismatch "Iterate expects an Array, got String" :=
    Engine.perform_fst_eq (d := 16) (by decide +kernel)
  refine ⟨?_, ?_⟩
  · rw [deliveredType, performAt_fst,
      show (perform (Plan.deliveredType ⟨2⟩ "output" .root) peeled).1 = _ from hperform]
    rfl
  · exact Engine.perform_map_eq (e := peeled.engine) (t := peeled.table) (d := 16)
      (p := Typing.check peeled.catalogue peeled.graph) (b := [⟨0⟩])
      (fun T => T.diagnostics.map (·.node)) (by decide +kernel)

end Session

end Dataflow
