import Dataflow.Proofs.Engine.Delivery
import Dataflow.Proofs.Graph.Params
import Dataflow.Proofs.ValueType.Mismatch

/-! If no declared output delivers a mismatch (`Unbroken`), then none delivers a type with a
mismatch in it.

Going up, a mismatch within what a node produces comes from what feeds it, or it is what an array
would be made of. This is then expected of all that goes into the array, and so it is a mismatch
that is delivered there (`produced_whole`). Going down, a mismatch within what a node delivers comes
from what it produces, or else from what is delivered after it (`delivered_whole`). -/

namespace Dataflow.Engine

open ValueType NodeDefinition

/-- No declared output delivers a mismatch. -/
def Unbroken (e : Engine) : Prop :=
  ∀ {id n}, e.graph.node? id = some n → ∀ o ∈ n.sources, (e.delivered id o.key).isMismatch = false

variable {e : Engine} {id : NodeId} {key : String} {n : Node} {c : Connection} {k : ConnectionId}
  {o : PortSpec}

namespace Proper

/-! ## Nodes with a key -/

section

variable (h : e.Proper)

include h

/-- A node with ports is of a known kind. -/
theorem known (hn : e.graph.node? id = some n) (ho : o ∈ n.ports) :
    e.catalogue.contains n.module n.type := by
  refine Catalogue.contains_of_ports fun hnone => ?_
  rw [show n.ports = [] from (h.ports hn).trans hnone] at ho
  cases ho

/-- Only pairs have a key. -/
theorem pair_of_textParam (hp : e.graph.KeepsParams e.catalogue) (hn : e.graph.node? id = some n)
    (ho : o ∈ n.ports) (hkey : n.textParam "key" ≠ "") : e.definition n = .pair := by
  have hmatch := hp id n hn (h.known hn ho) "key"
  have hb : Builtin (e.definition n) := h.all Catalogue.builtin_all n.module n.type
  have none (hnone : ((e.definition n).params.find? (·.key = "key")).map ParamSpec.kind = none) :
      e.definition n = .pair := by
    have hvalue : n.params["key"]? = none := Option.map_eq_none_iff.1 (hmatch.trans hnone)
    rw [Node.textParam, hvalue] at hkey
    exact absurd rfl hkey
  generalize e.definition n = d at hb none ⊢
  cases hb with
  | pair => rfl
  | _ => exact none rfl

theorem produced_object_fields (hn : e.graph.node? id = some n) (hd : e.definition n = .object)
    (key : String) : e.produced id key = .object (Fields.ofList
      ((e.graph.connectionsInto id "input").filterMap fun c =>
        fieldOf (e.graph.node? c.src.node) (e.produced c.src.node c.src.key))) := by
  obtain rfl := h.wellFormed.node_id hn
  rw [h.produced_eq hn, hd, eval_object_outputType]
  simp only [reply_connectionsInto, reply_node, produced]

/-- A connection starts at an output that its node declares. -/
theorem exists_source (hc : e.graph.connection? k = some c) :
    ∃ n, e.graph.node? c.src.node = some n ∧ ∃ o ∈ n.sources, o.key = c.src.key := by
  obtain ⟨hrole, o, ho⟩ := h.fitted.source hc
  obtain ⟨n, hn, hmem, hkey, hrole'⟩ := Graph.resolve_mem ho
  refine ⟨n, hn, o, List.mem_filter.2 ⟨hmem, ?_⟩, hkey⟩
  exact PortRole.isSource_iff.2 (hrole'.trans hrole)

end

/-! ## Ends of connections -/

section

variable (h : e.Proper) (hu : e.Unbroken)

include h hu

theorem delivered_not_mismatch (hc : e.graph.connection? k = some c) :
    (e.delivered c.src.node c.src.key).isMismatch = false := by
  obtain ⟨n, hn, o, ho, hkey⟩ := h.exists_source hc
  exact hkey ▸ hu hn o ho

theorem produced_not_mismatch (hn : e.graph.node? id = some n) (ho : o ∈ n.sources) :
    (e.produced id o.key).isMismatch = false :=
  (h.joins_delivered (hu hn o ho)).left_not_mismatch

/-- A mismatch that is expected is delivered. -/
theorem expected_not_mismatch (hc : e.graph.connection? k = some c) :
    (e.expected c.dest.node c.dest.key).isMismatch = false := by
  have hm := (h.joins_delivered (h.delivered_not_mismatch hu hc)).symm.left_not_mismatch
  have hmem : c ∈ e.graph.connectionsFrom c.src.node c.src.key :=
    h.wellFormed.mem_connectionsFrom.2 ⟨h.wellFormed.connection_id hc ▸ hc, rfl, rfl⟩
  exact unifyAll_induct (motive := fun t _ => t.isMismatch = false)
    (fun hj => ⟨hj.left_not_mismatch, hj.symm.left_not_mismatch⟩) (fun ht _ => ht)
    h.regular_consumers hm (List.mem_map_of_mem hmem)

/-! ## What comes in -/

/-- What an array is made of is expected of all that goes into it. -/
theorem gathered_not_mismatch (hn : e.graph.node? id = some n)
    (hd : MakesArray (e.definition n)) : (e.gathered id).isMismatch = false := by
  cases hinto : e.graph.connectionsInto id "input" with
  | nil =>
    rw [gathered, incoming, hinto]
    rfl
  | cons c cs =>
    obtain ⟨hc, hnode, hkey⟩ :=
      h.wellFormed.mem_connectionsInto.1 (hinto ▸ List.mem_cons_self : c ∈ _)
    have hexpected := h.expected_not_mismatch hu hc
    rw [hnode, hkey] at hexpected
    have hsource : PortSpec.output "output" ∈ n.sources := by
      rw [Node.sources, h.ports hn]
      generalize e.definition n = d at hd
      cases hd <;> decide
    have hm : (e.delivered id "output").isMismatch = false := hu hn _ hsource
    have hj := h.joins_delivered hm
    rw [h.produced_makesArray hn hd, h.delivered_makesArray hn hd hm] at hj
    exact items_not_mismatch hj hexpected

end

section

variable (h : e.Proper) (hinto : ∀ c ∈ e.graph.connectionsInto id "input",
  ¬HasMismatch (e.produced c.src.node c.src.key))

include h hinto

theorem gathered_whole_of_single (hn : e.graph.node? id = some n)
    (h1 : TakesOne (e.definition n)) : ¬HasMismatch (e.gathered id) := by
  rcases h.connectionsInto_cases hn h1 "input" with hnone | ⟨c, hc⟩
  · rw [gathered, incoming, hnone]
    exact not_hasMismatch_unresolved
  · have hmem : c ∈ e.graph.connectionsInto id "input" := hc ▸ List.mem_singleton_self c
    exact h.gathered_of_single hn h1 hmem ▸ hinto c hmem

theorem gathered_whole (hg : (e.gathered id).isMismatch = false) :
    ¬HasMismatch (e.gathered id) := by
  intro hmis
  obtain ⟨t, ht, hm⟩ := hmis.of_unifyAll (h.regular_incoming id) hg
  obtain ⟨c, hc, rfl⟩ := List.mem_map.1 ht
  exact hinto c hc hm

end

/-! ## What is produced -/

section

variable (h : e.Proper) (hp : e.graph.KeepsParams e.catalogue)

include h hp

/-- The fields of an object are what goes into the pairs that it is made of. -/
theorem fields_whole {key : String} {t : ValueType}
    (hinto : ∀ c ∈ e.graph.connectionsInto id "input",
      ¬HasMismatch (e.produced c.src.node c.src.key))
    (ht : (key, t) ∈ (e.graph.connectionsInto id "input").filterMap fun c =>
      fieldOf (e.graph.node? c.src.node) (e.produced c.src.node c.src.key)) : ¬HasMismatch t := by
  obtain ⟨c, hmem, hfield⟩ := List.mem_filterMap.1 ht
  obtain ⟨m, hm, o, ho, -⟩ := h.exists_source (h.wellFormed.mem_connectionsInto.1 hmem).1
  rw [hm, fieldOf, Option.bind_some] at hfield
  dsimp only at hfield
  split at hfield
  · cases hfield
  next hkey =>
    obtain ⟨-, rfl⟩ := Prod.mk.inj (Option.some.inj hfield)
    have hpair := h.pair_of_textParam hp hm (List.mem_of_mem_filter ho)
      fun hnone => hkey (by rw [hnone]; decide)
    have hwhole := hinto c hmem
    rw [h.produced_pair hm hpair] at hwhole ⊢
    exact fun hg => hwhole (hasMismatch_pair.2 hg)

/-- A node produces a type without a mismatch in it if those that come in have none, and come to
something where they make up an array. -/
theorem produced_whole_of (hn : e.graph.node? id = some n) (ho : o ∈ n.sources)
    (hinto : ∀ c ∈ e.graph.connectionsInto id "input",
      ¬HasMismatch (e.produced c.src.node c.src.key))
    (hg : MakesArray (e.definition n) → (e.gathered id).isMismatch = false)
    (hm : (e.produced id o.key).isMismatch = false) : ¬HasMismatch (e.produced id o.key) := by
  have hb : Builtin (e.definition n) := h.all Catalogue.builtin_all n.module n.type
  have gathers (hd : MakesArray (e.definition n)) : ¬HasMismatch (e.produced id o.key) := by
    rw [h.produced_makesArray hn hd, hasMismatch_array]
    exact h.gathered_whole hinto (hg hd)
  generalize hd : e.definition n = d at hb
  cases hb with
  | literal kind =>
    rw [h.produced_literal hn hd]
    cases kind <;> exact not_hasMismatch_of_leaf rfl rfl
  | array => exact gathers (hd ▸ .array)
  | iterate =>
    have hg := h.gathered_whole_of_single hinto hn (hd ▸ by decide)
    rw [h.produced_iterate hn hd] at hm ⊢
    split at hm
    next hk =>
      rw [if_pos hk]
      exact not_hasMismatch_number
    next hk =>
      rw [if_neg hk]
      rcases elementType_cases (h.regular_gathered id) with ht | ht | ⟨r, hr⟩
      · exact ht ▸ not_hasMismatch_unresolved
      · exact fun he => hg (ht ▸ hasMismatch_array.2 he)
      · rw [hr] at hm
        cases hm
  | collect => exact gathers (hd ▸ .collect)
  | object =>
    rw [h.produced_object_fields hn hd, hasMismatch_iff rfl]
    rintro ⟨⟨key, t⟩, hmem, ht⟩
    have hmem := Tables.mem_of_getElem?_ofList
      (Std.ExtTreeMap.mem_toList_iff_getElem?_eq_some.1 hmem)
    exact h.fields_whole hp hinto hmem ht
  | pair =>
    rw [h.produced_pair hn hd, hasMismatch_pair]
    exact h.gathered_whole_of_single hinto hn (hd ▸ by decide)
  | arithmetic op =>
    rw [h.produced_arithmetic hn hd]
    exact not_hasMismatch_number
  | notFound =>
    rw [Node.sources, h.ports hn, hd] at ho
    cases ho

/-- No declared output produces a type with a mismatch in it, from the first nodes on: with what
feeds the node being whole, there is only `gathered_not_mismatch` to be seen. -/
theorem produced_whole (hu : e.Unbroken) (hn : e.graph.node? id = some n) (ho : o ∈ n.sources) :
    ¬HasMismatch (e.produced id o.key) := by
  induction id using (h.acyclic.wellFounded h.wellFormed).induction generalizing n o with
  | _ id ih =>
    refine h.produced_whole_of hp hn ho (fun c hc => ?_) (h.gathered_not_mismatch hu hn)
      (h.produced_not_mismatch hu hn ho)
    obtain ⟨m, hm, o, ho, hkey⟩ := h.exists_source (h.wellFormed.mem_connectionsInto.1 hc).1
    exact hkey ▸ ih _ (h.wellFormed.feeds_of_mem_connectionsInto hc) hm ho

/-! ## What is delivered -/

omit hp in
/-- A mismatch within what is expected is within what the node delivers that expects it. -/
theorem delivered_of_expected (hu : e.Unbroken) (hc : e.graph.connection? k = some c)
    (hm : HasMismatch (e.expected c.dest.node c.dest.key)) :
    ∃ n, e.graph.node? c.dest.node = some n ∧ ∃ o ∈ n.sources,
      HasMismatch (e.delivered c.dest.node o.key) := by
  obtain ⟨n, hn, ht, -⟩ := h.takes hc
  have items (hd : MakesArray (e.definition n)) (ho : PortSpec.output "output" ∈ n.sources)
      (hm : HasMismatch (e.expected c.dest.node "input")) :
      ∃ o ∈ n.sources, HasMismatch (e.delivered c.dest.node o.key) := by
    refine ⟨_, ho, ?_⟩
    have heq := h.delivered_makesArray hn hd (hu hn _ ho)
    exact (show e.delivered c.dest.node (PortSpec.output "output").key = _ from heq) ▸
      hasMismatch_array.2 hm
  refine ⟨n, hn, ?_⟩
  have hsource (hd : PortSpec.output "output" ∈ (e.definition n).ports) :
      PortSpec.output "output" ∈ n.sources :=
    List.mem_filter.2 ⟨h.ports hn ▸ hd, rfl⟩
  generalize c.dest.key = key at ht hm
  generalize hd : e.definition n = d at ht
  cases ht with
  | array => exact items (hd ▸ .array) (hsource (hd ▸ by decide)) hm
  | collect => exact items (hd ▸ .collect) (hsource (hd ▸ by decide)) hm
  | iterate =>
    rw [h.expected_iterate hn hd, hasMismatch_array] at hm
    exact ⟨_, hsource (hd ▸ by decide), hm⟩
  | object =>
    rw [h.expected_object hn hd, hasMismatch_pair] at hm
    exact absurd hm not_hasMismatch_unresolved
  | pair =>
    rw [h.expected_pair hn hd] at hm
    exact absurd hm not_hasMismatch_unresolved
  | arithmetic op hkey =>
    rw [h.expected_arithmetic hn hd hkey] at hm
    exact absurd hm not_hasMismatch_number

/-- No declared output delivers a type with a mismatch in it, from the last nodes on: by
`delivered_of_expected` a mismatch that is expected is delivered further down. -/
theorem delivered_whole (hu : e.Unbroken) (hn : e.graph.node? id = some n) (ho : o ∈ n.sources) :
    ¬HasMismatch (e.delivered id o.key) := by
  induction id using (h.acyclic.wellFounded_swap h.wellFormed).induction generalizing n o with
  | _ id ih =>
    intro hg
    have hm := hu hn o ho
    have hdemanded := (h.joins_delivered hm).symm.left_not_mismatch
    rw [h.delivered_eq] at hg hm
    rcases hg.of_unify hm with hg | hg
    · exact h.produced_whole hp hu hn ho hg
    · obtain ⟨t, ht, hg⟩ := hg.of_unifyAll h.regular_consumers hdemanded
      obtain ⟨c, hc, rfl⟩ := List.mem_map.1 ht
      obtain ⟨m, hm, o, ho, hg⟩ :=
        h.delivered_of_expected hu (h.wellFormed.mem_connectionsFrom.1 hc).1 hg
      exact ih _ (h.wellFormed.feeds_of_mem_connectionsFrom hc) hm ho hg

end

end Proper

end Dataflow.Engine
