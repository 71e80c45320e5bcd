import Dataflow.Proofs.Engine.Shape
import Dataflow.Proofs.Engine.Unbroken
import Dataflow.Proofs.Fields

/-! What an object makes of the pairs that feed it.

Its value takes the names from the values of the pairs, its type from their parameters. Both leave
out white space around a name and skip blank ones, and both let a higher slot count over a lower one
(`NamesLast`). So they have the same fields, each from the same pair (`FedByPairs.fields`). -/

namespace Dataflow

open Memo (Table Key)

namespace Graph

variable {g : Graph} {id : NodeId} {name : String} {c d : Connection} {m m' : Node}

/-- A connection to a node comes from one that has the name, but for white space around it. -/
structure Names (g : Graph) (id : NodeId) (name : String) (c : Connection) (m : Node) : Prop where
  mem : c ∈ g.connectionList
  dest : c.dest.node = id
  source : g.node? c.src.node = some m
  name_eq : Text.trim (m.textParam "key") = name

/-- Of those connections it ends at the highest slot. -/
structure NamesLast (g : Graph) (id : NodeId) (name : String) (c : Connection) (m : Node) : Prop
    extends g.Names id name c m where
  last : ∀ d m', g.Names id name d m' → d ≠ c → d.dest.slot < c.dest.slot

end Graph

namespace Fields

/-- A field, unless it has no name. -/
def named {α : Type} (name : String) (a : α) : Option (String × α) :=
  if name = "" then none else some (name, a)

theorem named_eq_some {α : Type} {name key : String} {a b : α} :
    named name a = some (key, b) ↔ key ≠ "" ∧ name = key ∧ a = b := by
  unfold named
  grind

end Fields

/-- What a pair holds. -/
def Value.payload : Value → Value
  | .pair _ v => v
  | v => v

namespace Engine

open NodeDefinition

variable {e : Engine} {id : NodeId} {n m : Node} {c : Connection} {name port : String} {t : Table}

/-- The value at the source of a connection. -/
def supplied (e : Engine) (t : Table) (c : Connection) : Value :=
  (e.ask (.value c.src.node (.root .root) c.src.key) t).1

/-- If the node is a pair, the value has its key. -/
def Keyed (e : Engine) (id : NodeId) (v : Value) : Prop :=
  ∀ n, e.graph.node? id = some n → e.definition n = .pair →
    v = .pair (n.textParam "key") v.payload

theorem upholds_keyed (e : Engine) : e.Upholds e.Keyed := by
  intro id S key
  refine .bind (.query (q := .node id) trivial) fun n hn => ?_
  obtain rfl : n = e.graph.node? id := hn
  split
  next n hn =>
    by_cases hd : e.definition n = .pair
    · rw [hd]
      refine .map (Plan.Within.all (fun _ => trivial) _) fun v _ m hm _ => ?_
      cases hn.symm.trans hm
      rfl
    · refine .mono (Plan.Within.all (fun _ => trivial) _) fun v _ m hm hpair => ?_
      cases hn.symm.trans hm
      exact absurd hpair hd
  next hn => exact .pure fun m hm => nomatch hn.symm.trans hm

/-- A value is made of those that are found in a table for each of the connections to an object,
each of which is `Keyed`. -/
def Assembles (e : Engine) (t : Table) (id : NodeId) (v : Value) : Prop :=
  v = .object (Fields.ofList
    ((e.graph.connectionsInto id "input").filterMap fun c => fieldOf? (e.supplied t c))) ∧
    ∀ c ∈ e.graph.connectionsInto id "input", e.Keyed c.src.node (e.supplied t c)

theorem inputValues_recalled (t : Table) (id : NodeId) (key : String) :
    (Plan.inputValues id key (.root .root)).Ends (fun _ => True)
      (fun q a => (e.shaped e.Keyed).good q a ∧ (e.method q).Recalls t a) fun vs =>
        vs = (e.graph.connectionsInto id key).map (e.supplied t) ∧
          ∀ c ∈ e.graph.connectionsInto id key, e.Keyed c.src.node (e.supplied t c) := by
  refine .bind (.query (q := .connectionsInto id key) trivial) fun cs hcs => ?_
  obtain rfl : cs = e.graph.connectionsInto id key := hcs.1.1
  have hone (c : Connection) : (Plan.value c.src.node (.root .root) c.src.key).Ends (fun _ => True)
      (fun q a => (e.shaped e.Keyed).good q a ∧ (e.method q).Recalls t a)
      fun v => e.supplied t c = v ∧ e.Keyed c.src.node (e.supplied t c) := by
    refine .mono (.query (q := .value c.src.node (.root .root) c.src.key) trivial) fun v hv => ?_
    have hsupplied : e.supplied t c = v := ask_recalled rfl hv.2
    exact ⟨hsupplied, hsupplied ▸ hv.1.2⟩
  refine (Plan.Ends.and (.mapM_eq fun c _ => (hone c).mono fun _ hv => hv.1)
    (.mapM_exists fun c _ => (hone c).mono fun _ hv => hv.2)).mono fun vs hvs => ?_
  exact ⟨hvs.1.symm, fun c hc => (hvs.2 c hc).elim fun _ hk => hk.2⟩

namespace Proper

variable (h : e.Proper)

include h

theorem keeps_keyed : e.Keeps (e.shaped e.Keyed) :=
  keeps_shaped h.wellFormed h.acyclic (h.all Catalogue.builtin_layered)
    (h.all Catalogue.builtin_flowing) e.upholds_keyed

theorem answer_depth (q : Query) (ht : t.Holds e.FilesConnections) :
    e.answer (depth e.graph) [] q t = some (e.ask q t) := by
  have hrun := run_depth h.wellFormed (h.all Catalogue.builtin_layered)
    (h.all Catalogue.builtin_flowing) (Plan.query q) ht
  rwa [Plan.run_query] at hrun

/-- The connections to an object all end at its input. -/
theorem into_object (hn : e.graph.node? id = some n) (hd : e.definition n = .object) :
    c ∈ e.graph.connectionsInto id "input" ↔ c ∈ e.graph.connectionList ∧ c.dest.node = id := by
  rw [h.wellFormed.mem_connectionsInto, h.wellFormed.mem_connectionList]
  refine ⟨fun ⟨hc, hnode, _⟩ => ⟨hc, hnode⟩, fun ⟨hc, hnode⟩ => ⟨hc, hnode, ?_⟩⟩
  obtain ⟨hrole, s, hs⟩ := h.fitted.target hc
  obtain ⟨m, hm, hmem, hkey, hrole'⟩ := Graph.resolve_mem hs
  cases (hnode ▸ hn).symm.trans hm
  rw [h.ports hn, hd] at hmem
  rcases List.mem_pair.1 hmem with rfl | rfl
  · exact hkey.symm
  · rw [← hrole'] at hrole
    rcases hrole with hrole | hrole <;> cases hrole

/-- Where nothing is remembered yet, an object makes its fields of the values that its pairs are
found to have from then on: by `Keeps.answer_unrecalled`, as each of these is in the table that is
left. -/
theorem value_object (hn : e.graph.node? id = some n) (hd : e.definition n = .object)
    (ht : t.entries = ∅) (port : String) :
    let r := e.ask (.value id (.root .root) port) t
    e.Assembles r.2 id r.1 := by
  intro r
  obtain rfl := h.wellFormed.node_id hn
  have hends : (e.valuePlan n.id (.root .root) port).Ends (fun _ => True)
      (fun q a => (e.shaped e.Keyed).good q a ∧ (e.method q).Recalls r.2 a)
      (e.Assembles r.2 n.id) := by
    refine .bind (.query (q := .node n.id) trivial) fun m hm => ?_
    obtain rfl : m = some n := hm.1.1.trans hn
    dsimp only
    rw [hd]
    refine .bind (inputValues_recalled r.2 n.id "input") fun vs hvs => .pure ?_
    obtain ⟨rfl, hkeyed⟩ := hvs
    exact ⟨by rw [List.filterMap_map]; rfl, hkeyed⟩
  have hkept : Kept (e.shaped e.Keyed) t := ⟨.of_empty ht, .of_empty ht⟩
  obtain ⟨v, rfl, hv⟩ := h.keeps_keyed.answer_unrecalled (shaped_once h.acyclic)
    (q := .value n.id (.root .root) port) rfl (List.forall_mem_nil _) hkept (by simp [ht])
    (h.answer_depth _ (.of_empty ht)) hends
  exact hv

/-! ## Fields and their names -/

section Fields

variable {α : Type} {field? : Connection → Option (String × α)} {content : Connection → α} {a : α}
  (hn : e.graph.node? id = some n) (hd : e.definition n = .object)
  (hfield : ∀ c ∈ e.graph.connectionsInto id "input", ∃ m, e.graph.node? c.src.node = some m ∧
    field? c = Fields.named (Text.trim (m.textParam "key")) (content c))

include hn hd hfield

theorem field_eq_some (hc : c ∈ e.graph.connectionsInto id "input") : field? c = some (name, a) ↔
    name ≠ "" ∧ (∃ m, e.graph.Names id name c m) ∧ content c = a := by
  obtain ⟨m, hm, hf⟩ := hfield c hc
  obtain ⟨hmem, hdest⟩ := (h.into_object hn hd).1 hc
  rw [hf, Fields.named_eq_some]
  refine and_congr_right fun _ => and_congr_left fun _ =>
    ⟨fun hname => ⟨m, hmem, hdest, hm, hname⟩, ?_⟩
  rintro ⟨m', -, -, hm', hname⟩
  cases hm.symm.trans hm'
  exact hname

/-- The names are those that are not blank. -/
theorem mem_names :
    name ∈ (Fields.ofList ((e.graph.connectionsInto id "input").filterMap field?)).map Prod.fst ↔
      name ≠ "" ∧ ∃ c m, e.graph.Names id name c m := by
  rw [Fields.mem_names_ofList, List.mem_map]
  constructor
  · rintro ⟨⟨_, a⟩, hmem, rfl⟩
    obtain ⟨c, hc, hf⟩ := List.mem_filterMap.1 hmem
    obtain ⟨hname, ⟨m, hm⟩, -⟩ := (h.field_eq_some hn hd hfield hc).1 hf
    exact ⟨hname, c, m, hm⟩
  · rintro ⟨hname, c, m, hm⟩
    have hc := (h.into_object hn hd).2 ⟨hm.mem, hm.dest⟩
    have hf := (h.field_eq_some hn hd hfield hc).2 ⟨hname, ⟨m, hm⟩, rfl⟩
    exact ⟨(name, content c), List.mem_filterMap.2 ⟨c, hc, hf⟩, rfl⟩

/-- The field of a name is that of the highest slot, by `Fields.lookup_ofList_filterMap`: no two
connections stand at one slot (`ascending_connectionsInto`). -/
theorem lookup_fields :
    (Fields.ofList ((e.graph.connectionsInto id "input").filterMap field?)).lookup name = some a ↔
      name ≠ "" ∧ ∃ c m, e.graph.NamesLast id name c m ∧ content c = a := by
  rw [Fields.lookup_ofList_filterMap (h.ascending_connectionsInto id "input")]
  constructor
  · rintro ⟨c, hc, hf, hlast⟩
    obtain ⟨hname, ⟨m, hm⟩, ha⟩ := (h.field_eq_some hn hd hfield hc).1 hf
    refine ⟨hname, c, m, ⟨hm, fun d m' hd' hne => ?_⟩, ha⟩
    have hdmem := (h.into_object hn hd).2 ⟨hd'.mem, hd'.dest⟩
    exact hlast d hdmem (content d)
      ((h.field_eq_some hn hd hfield hdmem).2 ⟨hname, ⟨m', hd'⟩, rfl⟩) hne
  · rintro ⟨hname, c, m, hm, ha⟩
    have hc := (h.into_object hn hd).2 ⟨hm.mem, hm.dest⟩
    refine ⟨c, hc, (h.field_eq_some hn hd hfield hc).2 ⟨hname, ⟨m, hm.toNames⟩, ha⟩,
      fun d hdmem b hf hne => ?_⟩
    obtain ⟨-, ⟨m', hd'⟩, -⟩ := (h.field_eq_some hn hd hfield hdmem).1 hf
    exact hm.last d m' hd' hne

end Fields

end Proper

/-! ## Objects that are fed by pairs -/

/-- All connections that end at the node come from pairs. -/
def FedByPairs (e : Engine) (id : NodeId) : Prop :=
  ∀ c ∈ e.graph.connectionList, c.dest.node = id →
    ∃ m, e.graph.node? c.src.node = some m ∧ e.definition m = .pair

section Pairs

variable (h : e.Proper) (hn : e.graph.node? id = some n) (hd : e.definition n = .object)
  (hp : e.FedByPairs id)

include h hn hd hp

theorem FedByPairs.source (hc : c ∈ e.graph.connectionsInto id "input") :
    ∃ m, e.graph.node? c.src.node = some m ∧ e.definition m = .pair := by
  obtain ⟨hmem, hdest⟩ := (h.into_object hn hd).1 hc
  exact hp c hmem hdest

/-- The fields in the type of an object. -/
theorem FedByPairs.fieldOf_eq (hc : c ∈ e.graph.connectionsInto id "input") :
    ∃ m, e.graph.node? c.src.node = some m ∧
      fieldOf (e.graph.node? c.src.node) (e.produced c.src.node c.src.key) =
        Fields.named (Text.trim (m.textParam "key")) (e.gathered c.src.node) := by
  obtain ⟨m, hm, hpair⟩ := hp.source h hn hd hc
  refine ⟨m, hm, ?_⟩
  rw [hm, h.produced_pair hm hpair]
  rfl

/-- The fields in the value of an object. -/
theorem FedByPairs.fieldOf?_eq {v : Value} (hv : e.Assembles t id v)
    (hc : c ∈ e.graph.connectionsInto id "input") : ∃ m, e.graph.node? c.src.node = some m ∧
      fieldOf? (e.supplied t c) =
        Fields.named (Text.trim (m.textParam "key")) (e.supplied t c).payload := by
  obtain ⟨m, hm, hpair⟩ := hp.source h hn hd hc
  refine ⟨m, hm, ?_⟩
  rw [hv.2 c hc m hm hpair]
  rfl

/-- The value and the type of an object have the same names, and under each the pair of the highest
slot gives the one what it holds and the other what type that is. Both are made of the connections
in one way, by `fieldOf?_eq` and `fieldOf_eq`, so that `lookup_fields` is for both. -/
theorem FedByPairs.fields {v : Value} (hv : e.Assembles t id v) (port : String) : ∃ fs ts,
    v = .object fs ∧ e.produced id port = .object ts ∧ fs.map Prod.fst = ts.map Prod.fst ∧
      (∀ name, name ∈ fs.map Prod.fst ↔ name ≠ "" ∧ ∃ c m, e.graph.Names id name c m) ∧
      ∀ name ∈ fs.map Prod.fst, ∃ c m, e.graph.NamesLast id name c m ∧
        (name, (e.supplied t c).payload) ∈ fs ∧ (name, e.gathered c.src.node) ∈ ts := by
  have hvalue := fun c hc => hp.fieldOf?_eq (c := c) h hn hd hv hc
  have htype := fun c hc => hp.fieldOf_eq (c := c) h hn hd hc
  refine ⟨_, _, hv.1, h.produced_object_fields hn hd port, ?_, fun name => h.mem_names hn hd hvalue,
    fun name hname => ?_⟩
  · refine (Fields.sorted_ofList _).names_eq (Fields.sorted_ofList _) fun name => ?_
    rw [h.mem_names hn hd hvalue, h.mem_names hn hd htype]
  · obtain ⟨w, hw⟩ := Option.isSome_iff_exists.1 (Fields.isSome_lookup.2 hname)
    obtain ⟨hblank, c, m, hm, -⟩ := (h.lookup_fields hn hd hvalue).1 hw
    exact ⟨c, m, hm,
      Fields.mem_of_lookup ((h.lookup_fields hn hd hvalue).2 ⟨hblank, c, m, hm, rfl⟩),
      Fields.mem_of_lookup ((h.lookup_fields hn hd htype).2 ⟨hblank, c, m, hm, rfl⟩)⟩

end Pairs

end Engine

end Dataflow
