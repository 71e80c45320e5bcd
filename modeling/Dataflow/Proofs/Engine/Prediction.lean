import Dataflow.Proofs.Engine.Contract
import Dataflow.Proofs.Engine.Delivery
import Dataflow.Proofs.Engine.Rank
import Dataflow.Proofs.Graph.Params
import Dataflow.Proofs.Query.Expansion
import Dataflow.Proofs.ValueType.Conforms
import Dataflow.Proofs.ValueType.EmptyValue

/-! Types predict values.

The type that a node produces tells the kind of the values that it gives out (`Predicts`), in every
scope in which each bound iterator holds an element of the kind that its own type tells (`Fair`). A
collector asks in no other scopes, since what an iterator runs over conforms to the type that comes
in at it (`predicts_elements`). As a contract this is kept by all methods (`keeps_prediction`). -/

namespace Dataflow.Engine

open Memo (Key)
open NodeDefinition ValueType

variable {e : Engine} {working : List Key} {S : Scope} {id : NodeId} {key : String} {n : Node}
  {c : Connection} {v : Value}

/-- The value conforms to the type that is produced at the key, if no mismatch is in it. -/
def Predicts (e : Engine) (id : NodeId) (key : String) (v : Value) : Prop :=
  Whole (e.produced id key) → Conforms v (e.produced id key)

/-- The elements that iterators are bound to are as `Predicts` says of the iterators. -/
def Fair (e : Engine) (S : Scope) : Prop :=
  ∀ x l, S.lookup x = some l → e.Predicts x "output" l.value

/-- What stands for a missing input rests on the type that is demanded there. A pair leaves it open,
and an iterator demands an array. -/
def Demands (e : Engine) (id : NodeId) (t : ValueType) : Prop :=
  ∀ n, e.graph.node? id = some n → (e.definition n = .pair → t = .unresolved) ∧
    (e.definition n = .iterate → ∃ u, t = .array u)

/-- What answers are like when types predict values. This is what the contract `prediction` calls
good. -/
def Foretells (e : Engine) : (q : Query) → q.Answer → Prop
  | .node id, n => n = e.graph.node? id
  | .bound id S, l => l = S.lookup id
  | .connectionsInto id key, cs => cs = e.graph.connectionsInto id key
  | .connectionsFrom id key, cs => cs = e.graph.connectionsFrom id key
  | .value id _ key, v => e.Predicts id key v
  | .expectedType id key _, t => key = "input" → e.Demands id t
  | .emptyValue type, v => v = type.emptyValue e.catalogue.kinds
  | .elements n _, vs => ∀ v ∈ vs.1, e.Predicts n.id "output" v
  | _, _ => True

/-- Values are asked for in fair scopes alone. -/
def InFairScope (e : Engine) : Query → Prop
  | .value _ S _ => e.Fair S
  | .elements n S => e.graph.node? n.id = some n ∧ e.Fair S
  | _ => True

def prediction (e : Engine) : Contract where
  asks working q := Calm working ∧ e.InFairScope q
  good := e.Foretells
  filed k a := e.FilesConnections k a ∧
    (k.topic = .value → ∀ v, a.value? = some v → e.Predicts k.node k.word v)

theorem prediction_filed {k : Key} {a : Memo.Answer} (hk : k.topic = .connections) :
    e.prediction.filed k a ↔ e.FilesConnections k a :=
  and_iff_left fun hv => by rw [hk] at hv; cases hv

/-- Nothing is to be said of what is filed under other topics. -/
theorem prediction_filed_of {k : Key} (hc : k.topic ≠ .connections) (hv : k.topic ≠ .value)
    (a : Memo.Answer) : e.prediction.filed k a :=
  ⟨filesConnections_of_ne hc a, fun h => absurd h hv⟩

theorem Fair.root (e : Engine) (context : Context) : e.Fair (.root context) := by
  intro x l hl
  rw [Scope.lookup_root] at hl
  cases hl

/-- What a collector has bound is as predicted. -/
def FairLocals (e : Engine) (locals : Locals) : Prop :=
  ∀ (x : NodeId) (l : Local), locals[x]? = some l → e.Predicts x "output" l.value

theorem Fair.child (hS : e.Fair S) {locals : Locals} (h : e.FairLocals locals) :
    e.Fair (S.child locals) := by
  intro x l hl
  rw [Scope.lookup_child] at hl
  cases hx : locals[x]? with
  | none =>
    rw [hx, Option.none_or] at hl
    exact hS x l hl
  | some m =>
    rw [hx, Option.some_or] at hl
    cases hl
    exact h x l hx

theorem FairLocals.insert {locals : Locals} (h : e.FairLocals locals) {l : Local}
    (hl : e.Predicts id "output" l.value) : e.FairLocals (locals.insert id l) := by
  intro x m hm
  rw [Tables.getElem?_insert] at hm
  split at hm
  next hx =>
    cases hm
    exact hx ▸ hl
  next => exact h x m hm

/-! ## What comes in -/

/-- What one of the connections brings in, or what stands for a missing input. -/
def Supplied (e : Engine) (id : NodeId) (key : String) (v : Value) : Prop :=
  (∃ c ∈ e.graph.connectionsInto id key, e.Predicts c.src.node c.src.key v) ∨
    e.graph.connectionsInto id key = [] ∧
      ∃ t, (key = "input" → e.Demands id t) ∧ v = t.emptyValue e.catalogue.kinds

section Inputs

variable (hw : Calm working) (hS : e.Fair S)

include hw hS

theorem inputValue_foretold (id : NodeId) (key : String) :
    (Plan.inputValue id key S).Ends (e.prediction.asks working) e.Foretells
      (e.Supplied id key) := by
  refine .bind (.query (q := .connectionsInto id key) ⟨hw, trivial⟩) fun cs hcs => ?_
  obtain rfl := hcs
  split
  next c cs hcs =>
    refine .mono (.query ⟨hw, hS⟩) fun v hv => .inl ⟨c, ?_, hv⟩
    rw [hcs]
    exact List.mem_cons_self
  next hcs =>
    refine .bind (.query (q := .expectedType id key S.context) ⟨hw, trivial⟩) fun t ht => ?_
    exact .mono (.query ⟨hw, trivial⟩) fun v hv => .inr ⟨hcs, t, ht, hv⟩

theorem inputValues_foretold (id : NodeId) (key : String) :
    (Plan.inputValues id key S).Ends (e.prediction.asks working) e.Foretells fun vs =>
      ∀ v ∈ vs, ∃ c ∈ e.graph.connectionsInto id key, e.Predicts c.src.node c.src.key v := by
  refine .bind (.query (q := .connectionsInto id key) ⟨hw, trivial⟩) fun cs hcs => ?_
  obtain rfl := hcs
  exact .mapM_all fun c hc => .mono (.query ⟨hw, hS⟩) fun v hv => ⟨c, hc, hv⟩

end Inputs

/-- What one connection brings in conforms to what comes in altogether. -/
theorem Proper.conforms_gathered (h : e.Proper) (hc : c ∈ e.graph.connectionsInto id "input")
    (hg : Whole (e.gathered id)) (hv : e.Predicts c.src.node c.src.key v) :
    Conforms v (e.gathered id) := by
  obtain ⟨hsrc, hconforms⟩ := Conforms.unifyAll (v := v) (h.regular_incoming id) hg
    (List.mem_map_of_mem hc)
  exact hconforms (hv hsrc)

theorem emptyValue_unresolved : unresolved.emptyValue Catalogue.builtin.kinds = .nothing := by
  rw [unresolved, core, emptyValue, (coreKinds_of_core core_builtin).unresolved]

theorem emptyValue_array (t : ValueType) :
    (ValueType.array t).emptyValue Catalogue.builtin.kinds = .array [] := by
  rw [ValueType.array, core, emptyValue, (coreKinds_of_core core_builtin).array]

theorem conforms_emptyValue_literalType (kind : ParamKind) :
    Conforms ((literalType kind).emptyValue Catalogue.builtin.kinds) (literalType kind) := by
  have hk := coreKinds_of_core core_builtin
  cases kind with
  | text =>
    rw [literalType, ValueType.string, core, emptyValue, hk.string]
    exact .string _
  | number =>
    rw [literalType, ValueType.number, core, emptyValue, hk.number]
    exact .number _
  | boolean =>
    rw [literalType, ValueType.boolean, core, emptyValue, hk.boolean]
    exact .boolean _

/-! ## What each kind of node gives out -/

section Values

variable (h : e.Proper) (hn : e.graph.node? n.id = some n)

include h hn

omit h in
theorem definition_literal {kind : ParamKind} (hp : e.graph.KeepsParams e.catalogue)
    (hd : e.definition n = .literal kind) {p : ParamValue} (hv : n.params["value"]? = some p) :
    p.kind = kind := by
  have hknown : e.catalogue.contains n.module n.type :=
    Catalogue.contains_of_ports fun hports =>
      List.cons_ne_nil _ _ ((congrArg NodeDefinition.ports hd).symm.trans hports)
  have hm := hp n.id n hn hknown "value"
  rw [show e.catalogue.definitionOf n = _ from hd, hv] at hm
  cases kind <;> exact Option.some.inj hm

theorem predicts_literal {kind : ParamKind} (hp : e.graph.KeepsParams e.catalogue)
    (hd : e.definition n = .literal kind) {p : ParamValue} (hv : n.params["value"]? = some p) :
    e.Predicts n.id key p.toValue := by
  intro _
  rw [h.produced_literal hn hd]
  have hkind := definition_literal hn hp hd hv
  subst hkind
  cases p with
  | text s => exact .string s
  | number x => exact .number x
  | boolean b => exact .boolean b

/-- An array of what comes in. -/
theorem predicts_makesArray (hd : MakesArray (e.definition n)) {vs : List Value}
    (hvs : ∀ v ∈ vs, ∃ c ∈ e.graph.connectionsInto n.id "input",
      e.Predicts c.src.node c.src.key v) : e.Predicts n.id key (.array vs) := by
  intro hw
  rw [h.produced_makesArray hn hd] at hw ⊢
  refine .array fun v hv => ?_
  obtain ⟨c, hc, hv⟩ := hvs v hv
  exact h.conforms_gathered hc (whole_array hw) hv

/-- The elements that an iterator runs over, and the places that it counts. -/
theorem predicts_iterate (hd : e.definition n = .iterate) {l : Option Local}
    (hl : ∀ m, l = some m → e.Predicts n.id "output" m.value) :
    e.Predicts n.id key (match l with
      | none => .nothing
      | some l => if key = "index" then .number (Float.ofNat l.index) else l.value) := by
  intro hw
  cases l with
  | none => exact .nothing _
  | some m =>
    dsimp only
    split
    next hk =>
      rw [h.produced_iterate hn hd, if_pos hk]
      exact .number _
    next hk =>
      have heq : e.produced n.id key = e.produced n.id "output" := by
        rw [h.produced_iterate hn hd, h.produced_iterate hn hd, if_neg hk, if_neg (by decide)]
      rw [heq] at hw ⊢
      exact hl m rfl hw

/-- What comes in at an iterator is an array, if its elements are of any use. -/
theorem predicts_elements (hd : e.definition n = .iterate) (hv : e.Supplied n.id "input" v) :
    ∀ w ∈ v.items, e.Predicts n.id "output" w := by
  intro w hw hwhole
  rw [h.produced_iterate hn hd, if_neg (by decide)] at hwhole ⊢
  rcases hv with ⟨c, hc, hv⟩ | ⟨-, t, ht, rfl⟩
  -- what is gathered is left open, or it is an array, or else its elements are a mismatch
  · rcases elementType_cases (h.regular_gathered n.id) with hg | hg | ⟨r, hr⟩
    · have hv := h.conforms_gathered hc (hg ▸ .unresolved) hv
      rw [hg] at hv
      rw [conforms_unresolved hv] at hw
      cases hw
    · have hv := h.conforms_gathered hc (hg ▸ .array hwhole) hv
      rw [hg] at hv
      exact conforms_array hv w hw
    · exact absurd (hr ▸ hwhole) (not_whole_mismatch r)
  · obtain ⟨u, rfl⟩ := (ht rfl n hn).2 hd
    rw [h.catalogue, emptyValue_array] at hw
    cases hw

theorem predicts_pair (hd : e.definition n = .pair) (hv : e.Supplied n.id "input" v) :
    e.Predicts n.id key (.pair (n.textParam "key") v) := by
  intro hwhole
  rw [h.produced_pair hn hd] at hwhole ⊢
  refine .pair _ ?_
  rcases hv with ⟨c, hc, hv⟩ | ⟨-, t, ht, rfl⟩
  · exact h.conforms_gathered hc (whole_pair hwhole) hv
  · rw [(ht rfl n hn).1 hd, h.catalogue, emptyValue_unresolved]
    exact .nothing _

/-! ## What each kind of node asks for -/

variable (hw : Calm working) (hS : e.Fair S)

include hw hS

theorem evaluate_foretold {op : Operation} (hd : e.definition n = .arithmetic op) (key : String) :
    (op.evaluate n S).Ends (e.prediction.asks working) e.Foretells (e.Predicts n.id key) := by
  have nothing : e.Predicts n.id key .nothing := fun _ => .nothing _
  have number (x : Float) : e.Predicts n.id key (.number x) := by
    intro _
    rw [h.produced_arithmetic hn hd]
    exact .number x
  refine .bind (inputValue_foretold hw hS n.id "lhs") fun x _ => ?_
  split
  · exact .pure nothing
  refine .bind (inputValue_foretold hw hS n.id "rhs") fun y _ => ?_
  split
  · exact .pure nothing
  split
  · exact .pure (number _)
  · exact .pure nothing

omit hS in
/-- A collector with something to iterate over has an input that is connected. -/
theorem openEntries_foretold (hd : e.definition n = .collect) :
    (Plan.openEntries n.id S).Ends (e.prediction.asks working) e.Foretells fun entries =>
      entries ≠ [] → e.graph.connectionsInto n.id "input" ≠ [] := by
  refine .bind (.query (q := .node n.id) ⟨hw, trivial⟩) fun m hm => ?_
  obtain rfl : m = some n := hm.trans hn
  refine .bind (suppliers_ends id hn rfl fun _ => ⟨hw, trivial⟩) fun ids hids => ?_
  cases ids with
  | nil => exact .pure fun hne => absurd rfl hne
  | cons a ids =>
    have hconnected : e.graph.connectionsInto n.id "input" ≠ [] := by
      obtain ⟨m, s, c, hm, hs, hc, -⟩ := (hids a).1 List.mem_cons_self
      cases hn.symm.trans hm
      rw [Node.destinations, h.ports hn, hd] at hs
      have hs : s ∈ [PortSpec.input "input" .single] := hs
      rw [List.mem_singleton.1 hs] at hc
      exact List.ne_nil_of_mem hc
    refine .map (Plan.Ends.foldlM (I := fun _ => True) trivial fun st _ a _ => ?_) fun _ _ _ =>
      hconnected
    exact .mono (.query ⟨hw, trivial⟩) fun _ _ => trivial

theorem collect_foretold (hd : e.definition n = .collect) (key : String) :
    (Plan.collect n.id S).Ends (e.prediction.asks working) e.Foretells (e.Predicts n.id key) := by
  refine .mono (Plan.collect_ends (I := e.FairLocals) (R := fun v =>
    ∃ c ∈ e.graph.connectionsInto n.id "input", e.Predicts c.src.node c.src.key v)
    (openEntries_foretold h hn hw hd) ⟨hw, trivial⟩ (fun _ => ⟨hw, trivial⟩)
    (fun entries _ x _ m hm => ?_) ?_ fun entries hentries hne l hl => ?_) ?_
  · have hm : e.graph.node? x = some m := hm.symm
    obtain rfl := h.wellFormed.node_id hm
    exact ⟨fun l hl => ⟨hw, hm, hS.child hl⟩, fun hl hvs hv =>
      hl.insert (hvs _ (List.mem_of_getElem? hv))⟩
  · intro x l hl
    simp at hl
  · refine .mono (inputValue_foretold hw (hS.child hl) n.id "input") fun v hv => ?_
    exact hv.resolve_right fun hnone => hentries hne hnone.1
  · rintro v ⟨items, rfl, hitems⟩
    exact predicts_makesArray h hn (hd ▸ .collect) hitems

theorem value_foretold (hp : e.graph.KeepsParams e.catalogue) (key : String) :
    ((e.definition n).value n S key).Ends (e.prediction.asks working) e.Foretells
      (e.Predicts n.id key) := by
  have hb : Builtin (e.definition n) := h.all Catalogue.builtin_all n.module n.type
  generalize hd : e.definition n = d at hb
  cases hb with
  | literal kind =>
    simp only [literal, NodeDefinition.plain]
    cases hv : n.params["value"]? with
    | some p => exact .pure (predicts_literal h hn hp hd hv)
    | none =>
      refine .mono (.query ⟨hw, trivial⟩) fun v hv => ?_
      intro _
      rw [h.produced_literal hn hd, show v = _ from hv, h.catalogue]
      exact conforms_emptyValue_literalType kind
  | array =>
    exact .map (inputValues_foretold hw hS n.id "input") fun vs hvs =>
      predicts_makesArray h hn (hd ▸ .array) hvs
  | iterate =>
    refine .bind (.query (q := .bound n.id S) ⟨hw, trivial⟩) fun l hl => ?_
    have hv : e.Predicts n.id key _ :=
      predicts_iterate h hn hd fun m hm => hS n.id m (hl.symm.trans hm)
    cases l with
    | none => exact .pure hv
    | some m => exact .pure hv
  | collect => exact collect_foretold h hn hw hS hd key
  | object =>
    refine .bind (inputValues_foretold hw hS n.id "input") fun vs _ => .pure fun _ => ?_
    obtain ⟨fields, hf⟩ := h.produced_object hn hd key
    exact hf ▸ .object _ fields
  | pair =>
    exact .map (inputValue_foretold hw hS n.id "input") fun v hv => predicts_pair h hn hd hv
  | arithmetic op => exact evaluate_foretold h hn hw hS hd key
  | notFound => exact .pure fun _ => .nothing _

theorem elements_foretold : ((e.definition n).elements n S).Ends (e.prediction.asks working)
    e.Foretells fun vs => ∀ v ∈ vs, e.Predicts n.id "output" v := by
  have hb : Builtin (e.definition n) := h.all Catalogue.builtin_all n.module n.type
  generalize hd : e.definition n = d at hb
  cases hb with
  | iterate =>
    exact .map (inputValue_foretold hw hS n.id "input") fun v hv => predicts_elements h hn hd hv
  | _ => exact .pure (List.forall_mem_nil _)

end Values

/-! ## Every question -/

section Questions

variable (h : e.Proper) (hw : Calm working)

include h hw

/-- What a pair and an iterator take in. -/
theorem inputType_foretold (n : Node) (key : String) (context : Context) :
    ((e.definition n).inputType n key context).Ends (e.prediction.asks working) e.Foretells fun t =>
      key = "input" → (e.definition n = .pair → t = some .unresolved) ∧
        (e.definition n = .iterate → ∃ u, t = some (.array u)) := by
  by_cases hpair : e.definition n = .pair
  · rw [hpair]
    refine .mono (demandAt_ends (Q := (· = .unresolved)) (.pure rfl) "input" key) fun t ht hk => ?_
    obtain ⟨u, rfl, rfl⟩ := ht hk
    exact ⟨fun _ => rfl, fun hi => nomatch congrArg NodeDefinition.isIterator hi⟩
  by_cases hiter : e.definition n = .iterate
  · rw [hiter]
    refine .mono (demandAt_ends (Q := fun t => ∃ u, t = .array u)
      (.map (.query ⟨hw, trivial⟩) fun u _ => ⟨u, rfl⟩) "input" key) fun t ht hk => ?_
    obtain ⟨_, rfl, u, rfl⟩ := ht hk
    exact ⟨fun hp => (nomatch congrArg NodeDefinition.isIterator hp), fun _ => ⟨u, rfl⟩⟩
  · refine .mono ((h.all Catalogue.builtin_layered n.module n.type).inputType ⟨hw, trivial⟩ key)
      fun t _ _ => ⟨(absurd · hpair), (absurd · hiter)⟩

/-- What the type at an input that is not connected is like. -/
theorem expectedType_foretold (id : NodeId) (key : String) (context : Context) :
    (e.expectedTypePlan id key context).Ends (e.prediction.asks working) e.Foretells fun t =>
      key = "input" → e.Demands id t := by
  refine .bind (.query (q := .node id) ⟨hw, trivial⟩) fun m hm => ?_
  cases m with
  | none => exact .pure fun _ n hn => nomatch hm.trans hn
  | some n =>
    refine .bind (inputType_foretold h hw n key context) fun t ht => ?_
    cases t with
    | none =>
      refine .pure fun hk m hm' => ?_
      cases hm.trans hm'
      exact ⟨fun hd => (nomatch (ht hk).1 hd), fun hd => (nomatch (ht hk).2 hd)⟩
    | some t =>
      refine .pure fun hk m hm' => ?_
      cases hm.trans hm'
      refine ⟨fun hd => Option.some.inj ((ht hk).1 hd), fun hd => ?_⟩
      obtain ⟨u, hu⟩ := (ht hk).2 hd
      exact ⟨u, Option.some.inj hu⟩

end Questions

theorem inFairScope_of_aboutTypes {q : Query} (hq : q.AboutTypes) : e.InFairScope q := by
  cases q <;> trivial

/-- Of what is found by questions about types nothing is told. -/
theorem slot_foretold {α : Type} {slot : Slot α} (hc : slot.key.topic ≠ .connections)
    (hv : slot.key.topic ≠ .value) (hw : Calm working) {p : Plan α}
    (hp : p.Within Query.AboutTypes e.Foretells) :
    slot.Obeys e.prediction working p fun _ => True :=
  .of_within (prediction_filed_of hc hv) fun _ =>
    hp.weaken fun _ hq => ⟨hw.cons hc, inFairScope_of_aboutTypes hq⟩

theorem keeps_prediction (h : e.Proper) (hp : e.graph.KeepsParams e.catalogue) :
    e.Keeps e.prediction := by
  rintro working q ⟨hw, hq⟩
  cases q with
  | node id => rfl
  | bound id S =>
    simp only [method]
    cases hl : S.lookup id with
    | none => exact hl.symm
    | some l => exact hl.symm
  | connectionsInto id key => exact connectionsInto_obeys prediction_filed hw id key
  | connectionsFrom id key => exact connectionsFrom_obeys prediction_filed hw id key
  | ports id =>
    simp only [method]
    split
    · trivial
    · exact slot_foretold (by simp [Slot.ports, Key.inScope]) (by simp [Slot.ports, Key.inScope]) hw
        (portsPlan_within fun _ => trivial)
  | outputType id key context =>
    exact slot_foretold (by simp [Slot.type, Key.inContext]) (by simp [Slot.type, Key.inContext]) hw
      (outputTypePlan_within h.typed ..)
  | deliveredType id key context =>
    simp only [method]
    split
    · trivial
    · exact slot_foretold (by simp [Slot.type, Key.inContext]) (by simp [Slot.type, Key.inContext])
        hw (deliveredTypePlan_within ..)
  | value id S key =>
    have hk : (Key.inScope .value id S.key key).topic ≠ .connections := by simp [Key.inScope]
    refine ⟨fun hf ha => hf.2 rfl _ ha, fun _ => fun _ => .nothing _, fun _ => ?_⟩
    refine .mono (?_ : Plan.Ends _ _ (e.Predicts id key) _) fun v hv =>
      ⟨hv, fun ht => absurd ht hk, fun _ w hw => Option.some.inj hw ▸ hv⟩
    refine .bind (.query (q := .node id) ⟨hw.cons hk, trivial⟩) fun m hm => ?_
    cases m with
    | none => exact .pure fun _ => .nothing _
    | some n =>
      have hn : e.graph.node? id = some n := hm.symm
      obtain rfl := h.wellFormed.node_id hn
      exact value_foretold h hn (hw.cons hk) hq hp key
  | expectedType id key context => exact expectedType_foretold h hw id key context
  | emptyValue type => rfl
  | visit id S seen found =>
    exact visitPlan_within (fun _ => ⟨hw, trivial⟩) (fun _ _ => ⟨hw, trivial⟩)
      (fun _ _ _ => ⟨hw, trivial⟩) id seen found
  | elements n S => exact (elements_foretold h hq.1 hw hq.2).mono fun _ hvs _ => hvs
  | limit => trivial

end Dataflow.Engine
