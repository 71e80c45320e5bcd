import Dataflow.Proofs.Engine.Inference
import Dataflow.Proofs.ValueType.Shapes

/-! What each kind of node produces and expects, and what is delivered along its connections.

For the kinds of nodes of `Catalogue.builtin`, the answers `Engine.produced`, `Engine.expected` and
`Engine.delivered` are given here as functions of each other. -/

namespace Dataflow.Engine

open ValueType

variable {e : Engine} {id : NodeId} {key : String} {n : Node} {c d : Connection} {k : ConnectionId}

/-- The types that come in at the input of a node. -/
def incoming (e : Engine) (id : NodeId) : List ValueType :=
  (e.graph.connectionsInto id "input").map fun c => e.produced c.src.node c.src.key

/-- What comes in at the input of a node, taken together with `ValueType.unifyAll`. -/
def gathered (e : Engine) (id : NodeId) : ValueType := .unifyAll (e.incoming id)

theorem typesInto_reply (id : NodeId) : typesInto e.reply id "input" .root = e.incoming id := by
  rw [typesInto, reply_connectionsInto]
  rfl

/-- What the nodes fed from a key expect, taken together with `ValueType.unifyAll`. -/
def demanded (e : Engine) (id : NodeId) (key : String) : ValueType :=
  .unifyAll ((e.graph.connectionsFrom id key).map fun c => e.expected c.dest.node c.dest.key)

open NodeDefinition

namespace Proper

section Keys

variable (h : e.Proper)

include h

theorem has (hn : e.graph.node? id = some n) {s : PortSpec} (hs : s ∈ n.ports) :
    Has (e.definition n) s :=
  has_of_builtin (h.all Catalogue.builtin_all n.module n.type) s (h.ports hn ▸ hs)

/-- A connection ends at a key at which its node takes something in. -/
theorem takes (hc : e.graph.connection? k = some c) : ∃ n, e.graph.node? c.dest.node = some n ∧
    Takes (e.definition n) c.dest.key ∧ c.dest.role = .input := by
  obtain ⟨hrole, s, hs⟩ := h.fitted.target hc
  obtain ⟨n, hn, hs, hkey, hrole'⟩ := Graph.resolve_mem hs
  refine ⟨n, hn, ?_⟩
  rw [← hkey, ← hrole']
  cases h.has hn hs with
  | input ht => exact ⟨ht, rfl⟩
  | output _ => rw [← hrole'] at hrole; rcases hrole with hrole | hrole <;> cases hrole

/-- No two connections that end at a key of a node have the same slot there. -/
theorem ascending_connectionsInto (id : NodeId) (key : String) :
    (e.graph.connectionsInto id key).Pairwise fun c d => c.dest.slot < d.dest.slot := by
  refine ((Graph.pairwise_connectionsInto ..).and
    (h.wellFormed.nodup_connectionsInto id key)).imp_of_mem fun {c d} hc hd hcd => ?_
  refine Nat.lt_of_le_of_ne hcd.1 fun hslot => hcd.2 ?_
  rw [h.wellFormed.mem_connectionsInto] at hc hd
  obtain ⟨hc, hcn, hck⟩ := hc
  obtain ⟨hd, hdn, hdk⟩ := hd
  obtain ⟨-, -, -, hcr⟩ := h.takes hc
  obtain ⟨-, -, -, hdr⟩ := h.takes hd
  have hdest : c.dest = d.dest := by
    cases hcd : c.dest
    cases hdd : d.dest
    simp_all
  rw [h.fitted.slots hc hd hdest] at hc
  exact Option.some.inj (hc.symm.trans hd)

/-- A connection starts at a key at which its node gives something out. -/
theorem gives (hc : e.graph.connection? k = some c) : ∃ n, e.graph.node? c.src.node = some n ∧
    Gives (e.definition n) c.src.key := by
  obtain ⟨hrole, s, hs⟩ := h.fitted.source hc
  obtain ⟨n, hn, hs, hkey, hrole'⟩ := Graph.resolve_mem hs
  refine ⟨n, hn, ?_⟩
  rw [← hkey]
  cases h.has hn hs with
  | input _ => cases hrole'.trans hrole
  | output hg => exact hg

section Single

variable (hn : e.graph.node? id = some n) (h1 : TakesOne (e.definition n))

include hn h1

theorem eq_of_mem_connectionsInto (hc : c ∈ e.graph.connectionsInto id key)
    (hd : d ∈ e.graph.connectionsInto id key) : c = d := by
  rw [h.wellFormed.mem_connectionsInto] at hc hd
  obtain ⟨hc, rfl, rfl⟩ := hc
  obtain ⟨hd, hnode, hkey⟩ := hd
  obtain ⟨-, -, -, hcr⟩ := h.takes hc
  obtain ⟨-, -, -, hdr⟩ := h.takes hd
  obtain ⟨-, s, hres⟩ := h.fitted.target hc
  obtain ⟨m, hm, hmem, -, hrole⟩ := Graph.resolve_mem hres
  cases hn.symm.trans hm
  have hgroup := PortRef.sameGroup_iff.2 ⟨hnode.symm, hkey.symm, hcr.trans hdr.symm⟩
  have hid := h.fitted.single hc hd hgroup hres (h1 s (h.ports hn ▸ hmem) (hrole.trans hcr))
  rw [hid] at hc
  exact Option.some.inj (hc.symm.trans hd)

theorem connectionsInto_cases (key : String) : e.graph.connectionsInto id key = [] ∨
    ∃ c, e.graph.connectionsInto id key = [c] := by
  have hnd := h.wellFormed.nodup_connectionsInto id key
  have heq : ∀ c ∈ e.graph.connectionsInto id key, ∀ d ∈ e.graph.connectionsInto id key, c = d :=
    fun _ hc _ hd => h.eq_of_mem_connectionsInto hn h1 hc hd
  generalize e.graph.connectionsInto id key = cs at hnd heq
  match cs with
  | [] => exact .inl rfl
  | [c] => exact .inr ⟨c, rfl⟩
  | c :: d :: cs => simp [heq c (by simp) d (by simp)] at hnd

/-- Where a node takes one connection at an input, what comes in first is all that there is. -/
theorem head?_incoming : (e.incoming id).head?.getD .unresolved = e.gathered id := by
  rw [gathered, incoming]
  rcases h.connectionsInto_cases hn h1 "input" with hnone | ⟨c, hc⟩
  · rw [hnone]
    rfl
  · rw [hc]
    exact (unify_unresolved_left _).symm

theorem gathered_of_single (hc : c ∈ e.graph.connectionsInto id "input") :
    e.gathered id = e.produced c.src.node c.src.key := by
  rw [gathered, incoming]
  rcases h.connectionsInto_cases hn h1 "input" with hnone | ⟨d, hd⟩
  · rw [hnone] at hc
    cases hc
  · rw [hd] at hc ⊢
    rw [List.mem_singleton.1 hc]
    exact unify_unresolved_left _

end Single

end Keys

section Produced

variable (h : e.Proper) (hn : e.graph.node? id = some n)

include h hn

theorem produced_eq (key : String) :
    e.produced id key = ((e.definition n).outputType n key .root).eval e.reply := by
  rw [produced, h.reply_outputType, eval_outputTypePlan hn]

theorem produced_literal {kind : ParamKind} (hd : e.definition n = .literal kind) (key : String) :
    e.produced id key = literalType kind := by
  rw [h.produced_eq hn, hd]
  rfl

theorem produced_makesArray (hd : MakesArray (e.definition n)) (key : String) :
    e.produced id key = .array (e.gathered id) := by
  obtain rfl := h.wellFormed.node_id hn
  rw [h.produced_eq hn]
  generalize hd' : e.definition n = d at hd ⊢
  cases hd with
  | array => rw [eval_array_outputType, typesInto_reply, gathered]
  | collect =>
    rw [eval_collect_outputType, typesInto_reply, h.head?_incoming hn (hd' ▸ by decide)]

theorem produced_iterate (hd : e.definition n = .iterate) (key : String) :
    e.produced id key = if key = "index" then .number else elementType (e.gathered id) := by
  obtain rfl := h.wellFormed.node_id hn
  rw [h.produced_eq hn, hd, eval_iterate_outputType, typesInto_reply,
    h.head?_incoming hn (hd ▸ by decide)]

theorem produced_pair (hd : e.definition n = .pair) (key : String) :
    e.produced id key = .pair (e.gathered id) := by
  obtain rfl := h.wellFormed.node_id hn
  rw [h.produced_eq hn, hd, eval_pair_outputType, typesInto_reply,
    h.head?_incoming hn (hd ▸ by decide)]

theorem produced_object (hd : e.definition n = .object) (key : String) :
    ∃ fields, e.produced id key = .object fields := by
  rw [h.produced_eq hn, hd, eval_object_outputType]
  exact ⟨_, rfl⟩

theorem produced_arithmetic {op : Operation} (hd : e.definition n = .arithmetic op)
    (key : String) : e.produced id key = .number := by
  rw [h.produced_eq hn, hd]
  rfl

end Produced

section Expected

variable (h : e.Proper) (hn : e.graph.node? id = some n)

include h hn

theorem expected_eq (key : String) :
    e.expected id key = (((e.definition n).inputType n key .root).eval e.reply).getD
      (.mismatch s!"connection target {n.label} is missing input key {key}") := by
  rw [expected, h.reply_expectedType, eval_expectedTypePlan hn]

theorem expected_makesArray (hd : MakesArray (e.definition n)) :
    e.expected id "input" = itemsOf n (e.delivered id "output") := by
  obtain rfl := h.wellFormed.node_id hn
  rw [h.expected_eq hn]
  generalize e.definition n = d at hd
  cases hd with
  | array =>
    rw [eval_array_inputType]
    rfl
  | collect =>
    rw [eval_collect_inputType]
    rfl

theorem expected_iterate (hd : e.definition n = .iterate) :
    e.expected id "input" = .array (e.delivered id "output") := by
  obtain rfl := h.wellFormed.node_id hn
  rw [h.expected_eq hn, hd, eval_iterate_inputType]
  rfl

theorem expected_object (hd : e.definition n = .object) :
    e.expected id "input" = .pair .unresolved := by
  rw [h.expected_eq hn, hd, eval_object_inputType]
  rfl

theorem expected_pair (hd : e.definition n = .pair) : e.expected id "input" = .unresolved := by
  rw [h.expected_eq hn, hd, eval_pair_inputType]
  rfl

theorem expected_arithmetic {op : Operation} (hd : e.definition n = .arithmetic op)
    (hkey : key = "lhs" ∨ key = "rhs") : e.expected id key = .number := by
  rw [h.expected_eq hn, hd]
  change (if key = "lhs" ∨ key = "rhs" then some ValueType.number else none).getD _ = _
  rw [if_pos hkey]
  rfl

end Expected

/-! ## Types are made by their constructors -/

section Regular

variable (h : e.Proper)

include h

theorem regular_produced (id : NodeId) (key : String) : Regular (e.produced id key) := by
  induction id using (h.acyclic.wellFounded h.wellFormed).induction generalizing key with
  | _ id ih =>
    have hgathered : Regular (e.gathered id) := by
      refine regular_unifyAll (List.forall_mem_map.2 fun c hc => ?_)
      exact ih _ (h.wellFormed.feeds_of_mem_connectionsInto hc) _
    cases hn : e.graph.node? id with
    | none =>
      rw [produced, h.reply_outputType, eval_outputTypePlan_none hn]
      exact .mismatch _
    | some n =>
      have hb : Builtin (e.definition n) := h.all Catalogue.builtin_all n.module n.type
      generalize hd : e.definition n = d at hb
      cases hb with
      | literal kind =>
        rw [h.produced_literal hn hd]
        cases kind with
        | text => exact .string
        | number => exact .number
        | boolean => exact .boolean
      | array => exact h.produced_makesArray hn (hd ▸ .array) _ ▸ .array hgathered
      | iterate =>
        rw [h.produced_iterate hn hd]
        split
        · exact .number
        · exact regular_elementType hgathered
      | collect => exact h.produced_makesArray hn (hd ▸ .collect) _ ▸ .array hgathered
      | object =>
        obtain ⟨fields, hf⟩ := h.produced_object hn hd key
        exact hf ▸ .object fields
      | pair => exact h.produced_pair hn hd _ ▸ .pair hgathered
      | arithmetic op => exact h.produced_arithmetic hn hd _ ▸ .number
      | notFound =>
        rw [h.produced_eq hn, hd]
        exact .mismatch _

theorem regular_incoming (id : NodeId) : ∀ t ∈ e.incoming id, Regular t :=
  List.forall_mem_map.2 fun c _ => h.regular_produced c.src.node c.src.key

theorem regular_gathered (id : NodeId) : Regular (e.gathered id) :=
  regular_unifyAll (h.regular_incoming id)

theorem delivered_of_regular (hr : Regular (e.demanded id key)) :
    e.delivered id key = (e.produced id key).unify (e.demanded id key) := by
  rw [h.delivered_deliver, h.catalogue]
  exact Catalogue.deliver_builtin (regular_unify (h.regular_produced id key) hr)

theorem regular_expected_of (hn : e.graph.node? id = some n) (ht : Takes (e.definition n) key)
    (hr : Regular (e.demanded id "output")) : Regular (e.expected id key) := by
  have hdelivered := h.delivered_of_regular hr
  have items (hd : MakesArray (e.definition n)) : Regular (e.expected id "input") := by
    rw [h.expected_makesArray hn hd, hdelivered, h.produced_makesArray hn hd]
    exact regular_itemsOf n (h.regular_gathered _) hr
  generalize hd : e.definition n = d at ht
  cases ht with
  | array => exact items (hd ▸ .array)
  | collect => exact items (hd ▸ .collect)
  | iterate =>
    rw [h.expected_iterate hn hd, hdelivered]
    exact .array (regular_unify (h.regular_produced ..) hr)
  | object => exact h.expected_object hn hd ▸ .pair .unresolved
  | pair => exact h.expected_pair hn hd ▸ .unresolved
  | arithmetic op hkey => exact h.expected_arithmetic hn hd hkey ▸ .number

theorem regular_demanded (id : NodeId) (key : String) : Regular (e.demanded id key) := by
  induction id using (h.acyclic.wellFounded_swap h.wellFormed).induction generalizing key with
  | _ id ih =>
    refine regular_unifyAll (List.forall_mem_map.2 fun c hc => ?_)
    obtain ⟨n, hn, ht, -⟩ := h.takes (h.wellFormed.mem_connectionsFrom.1 hc).1
    exact h.regular_expected_of hn ht (ih _ (h.wellFormed.feeds_of_mem_connectionsFrom hc) "output")

theorem regular_expected (hn : e.graph.node? id = some n) (ht : Takes (e.definition n) key) :
    Regular (e.expected id key) :=
  h.regular_expected_of hn ht (h.regular_demanded ..)

/-- What is delivered is what is produced together with what is demanded. -/
theorem delivered_eq (id : NodeId) (key : String) :
    e.delivered id key = (e.produced id key).unify (e.demanded id key) :=
  h.delivered_of_regular (h.regular_demanded id key)

theorem regular_delivered (id : NodeId) (key : String) : Regular (e.delivered id key) :=
  h.delivered_eq id key ▸ regular_unify (h.regular_produced id key) (h.regular_demanded id key)

theorem joins_delivered (hm : (e.delivered id key).isMismatch = false) :
    Joins (e.produced id key) (e.demanded id key) (e.delivered id key) := by
  rw [h.delivered_eq] at hm ⊢
  exact .of_unify (h.regular_produced id key) (h.regular_demanded id key) hm

end Regular

/-! ## Consumers -/

section Consumers

variable (h : e.Proper)

include h

theorem regular_consumers : ∀ t ∈ (e.graph.connectionsFrom id key).map fun c =>
    e.expected c.dest.node c.dest.key, Regular t := by
  refine List.forall_mem_map.2 fun c hc => ?_
  obtain ⟨n, hn, ht, -⟩ := h.takes (h.wellFormed.mem_connectionsFrom.1 hc).1
  exact h.regular_expected hn ht

/-- What has the shape of what is delivered has the shape of what is expected of it, as what is
expected has joined to what is delivered (`Joins.shapes_left`). -/
theorem shapes_delivered (hc : c ∈ e.graph.connectionsFrom id key) {t : ValueType}
    (hm : (e.delivered id key).isMismatch = false) (hs : Shapes (e.delivered id key) t) :
    Shapes (e.expected c.dest.node c.dest.key) t := by
  have hj := (h.joins_delivered hm).symm
  exact shapes_of_unifyAll h.regular_consumers hj.left_not_mismatch (hj.shapes_left hs)
    (List.mem_map_of_mem hc)

end Consumers

/-- What goes into an array makes up what it delivers. -/
theorem delivered_makesArray (h : e.Proper) (hn : e.graph.node? id = some n)
    (hd : MakesArray (e.definition n)) (hm : (e.delivered id "output").isMismatch = false) :
    e.delivered id "output" = .array (e.expected id "input") := by
  have hj := h.joins_delivered hm
  rw [h.produced_makesArray hn hd] at hj
  obtain ⟨u, hu⟩ := joins_array hj
  rw [h.expected_makesArray hn hd, hu, itemsOf_array]

end Proper

end Dataflow.Engine
