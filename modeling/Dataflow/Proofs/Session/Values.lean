import Dataflow.Proofs.Engine.Untangled
import Dataflow.Proofs.Session.Types

/-! Values are answered as if nothing was remembered, as long as each one asked for is found in a
graph without a cycle, with iterators bound in one and the same order. This is what `Engine.Tame`
says, and what goes wrong without it is shown by `tangle` and `snare`. -/

namespace Dataflow

open Memo (Table)

namespace Session

variable {s : Session} {T : Engine → NodeId → Prop}

/-- The sessions over the kinds of nodes that there are from the outset, in which values were asked
for where `T` holds. All other questions are about types, and may be asked at any time. -/
inductive Used (T : Engine → NodeId → Prop) : Session → Prop
  | start (config : Config) : Used T (.start config .builtin)
  | editAll {s : Session} (steps : List Step) : Used T s → Used T (editAll steps s).2
  | load {s : Session} (snapshot : Snapshot) : Used T s → Used T (load snapshot s).2
  | setPending {s : Session} (p : Option PortRef) : Used T s → Used T (setPending p s).2
  | perform {s : Session} {α : Type} {p : Plan α} :
    (∀ right, p.Within Query.AboutTypes right) → Used T s → Used T (perform p s).2
  | valueAt {s : Session} (id : NodeId) (key : String) : T s.engine id → Used T s →
    Used T (valueAt id key s).2

theorem valueAt_eq {id : NodeId} (h : (s.graph.node? id).isSome) (key : String) :
    valueAt id key s =
      (.ok (perform (Plan.value id (.root .root) key) s).1,
        (perform (Plan.value id (.root .root) key) s).2) := by
  obtain ⟨n, hn⟩ := Option.isSome_iff_exists.1 h
  simp only [valueAt, performAt, bind, StateT.bind, get, getThe, MonadStateOf.get, StateT.get, pure,
    Graph.requireNode_ok.2 hn]
  rfl

theorem valueAt_snd (id : NodeId) (key : String) (s : Session) : (valueAt id key s).2 = s ∨
    (valueAt id key s).2 = (perform (Plan.value id (.root .root) key) s).2 := by
  simp only [valueAt, performAt, bind, StateT.bind, get, getThe, MonadStateOf.get, StateT.get, pure]
  cases s.graph.requireNode id with
  | error => exact .inl rfl
  | ok => exact .inr rfl

theorem valueAt_engine (id : NodeId) (key : String) (s : Session) :
    (valueAt id key s).2.engine = s.engine := by
  rcases valueAt_snd id key s with h | h
  · rw [h]
  · rw [h]
    rfl

theorem load_cases (snapshot : Snapshot) (s : Session) : (load snapshot s).2 = s ∨
    (load snapshot s).2.catalogue = s.catalogue ∧ (load snapshot s).2.table.entries = ∅ := by
  unfold load
  split
  · exact .inl rfl
  · exact .inr ⟨rfl, rfl⟩

theorem Used.reached (h : s.Used T) : s.Reached := by
  induction h with
  | start config => exact .start config .builtin
  | editAll steps _ ih => exact .editAll steps ih
  | load snapshot _ ih => exact .load snapshot ih
  | setPending p _ ih => exact .setPending p ih
  | perform _ _ ih => exact .perform _ ih
  | @valueAt s id key _ _ ih =>
    rcases valueAt_snd id key s with hs | hs
    · rw [hs]
      exact ih
    · rw [hs]
      exact .perform _ ih

theorem Used.catalogue (h : s.Used T) : s.catalogue = .builtin := by
  induction h with
  | start config => rfl
  | editAll steps hs ih => exact (keeps_editAll hs.reached.wellFormed steps).catalogue.trans ih
  | @load s snapshot _ ih =>
    rcases load_cases snapshot s with hs | ⟨hs, -⟩
    · rw [hs]
      exact ih
    · exact hs.trans ih
  | setPending p _ ih => exact ih
  | perform _ _ ih => exact ih
  | @valueAt s id key _ _ ih =>
    rcases valueAt_snd id key s with hs | hs
    · rw [hs]
      exact ih
    · rw [hs]
      exact ih

theorem Used.all (h : s.Used T) {Q : NodeDefinition → Prop} (hQ : Catalogue.builtin.All Q) :
    s.engine.catalogue.All Q := by
  have hc : s.engine.catalogue = .builtin := h.catalogue
  rw [hc]
  exact hQ

theorem Used.valueDomain {o : Precedence} (h : s.Used T) {id : NodeId} (ht : s.engine.Tame o id) :
    s.engine.Domain o (s.engine.AboutValue o id) Query.Counts :=
  Engine.valueDomain h.reached.wellFormed ht (h.all Catalogue.builtin_layered)
    (h.all Catalogue.builtin_flowing)

theorem value_within {o : Precedence} (e : Engine) (id : NodeId) (key : String) :
    (Plan.value id (.root .root) key).Within (e.AboutValue o id) (e.Right o) := by
  refine .query (q := .value id (.root .root) key) ⟨⟨[], .root, fun x => ?_⟩, Engine.fits_root⟩
  simp [Scope.isBound_eq_isSome]

theorem Used.sound {o : Precedence} (h : s.Used (Engine.Tame o)) :
    s.engine.Sound o Query.Counts s.table := by
  induction h with
  | start config => exact .of_empty rfl
  | editAll steps hs ih =>
    exact (keeps_editAll hs.reached.wellFormed steps).sound hs.reached.remembers.rooted ih
  | @load s snapshot _ ih =>
    rcases load_cases snapshot s with hs | ⟨-, hs⟩
    · rw [hs]
      exact ih
    · exact .of_empty hs
  | setPending p _ ih => exact ih
  | @perform s α p hp hs ih =>
    have hd : s.engine.Domain o Query.AboutTypes Query.Counts :=
      Engine.typesDomain (hs.all Catalogue.builtin_typed) fun q hq => by
        cases q <;> trivial
    exact hd.perform_sound (hp _) ih
  | @valueAt s id key ht hs ih =>
    rcases valueAt_snd id key s with he | he
    · rw [he]
      exact ih
    · rw [he]
      exact (hs.valueDomain ht).perform_sound (value_within _ id key) ih

/-- A value is answered as if nothing was remembered if it is found in order, and all values asked
for before it were found in the same order. By `Engine.Tame` the graph has no cycle, and where one
iterator feeds another the two are bound in the order `o`, as far as what is gathered depends on
both. Then by `Used.valueDomain` what is remembered of values is right, as is what is remembered of
types. -/
theorem valueAt_forget {o : Precedence} (h : s.Used (Engine.Tame o)) {id : NodeId}
    (ht : s.engine.Tame o id) (key : String) :
    (valueAt id key s).1 = (valueAt id key s.forget).1 := by
  refine (performAt_fst id _ s).trans (Eq.trans ?_ (performAt_fst id _ s.forget).symm)
  refine congrArg (fun v => (s.graph.requireNode id).bind fun _ => .ok v) ?_
  exact (h.valueDomain ht).perform_fst (value_within _ id key) h.sound (.of_empty rfl)

/-! ## Two collectors that share their iterators -/

/-- A node of the module Core, with the ports that such a node has. -/
def coreNode (index : Nat) (type : String) (params : Params) : Node :=
  ⟨⟨index⟩, "Core", type, params, (Catalogue.builtin.definition "Core" type).ports⟩

def wire (index source dest slot : Nat) : Connection :=
  ⟨⟨index⟩, ⟨⟨source⟩, "output", .output, 0⟩, ⟨⟨dest⟩, "input", .input, slot⟩⟩

/-- The iterators 4 and 5 run over arrays of a true value, the first also over a false one. -/
def iterators : List Node :=
  [coreNode 0 "Boolean" ((∅ : Params).insert "value" (.boolean true)),
    coreNode 1 "Boolean" ((∅ : Params).insert "value" (.boolean false)), coreNode 2 "Array" ∅,
    coreNode 3 "Array" ∅, coreNode 4 "Iterate" ∅, coreNode 5 "Iterate" ∅]

def iteratorWires : List Connection :=
  [wire 0 0 2 0, wire 1 1 2 1, wire 2 0 3 0, wire 3 2 4 0, wire 4 3 5 0]

/-- The collector 8 comes upon the iterator 4 first, the collector 9 upon the iterator 5. -/
def warp : Snapshot :=
  ⟨"warp", 1,
    iterators ++ [coreNode 6 "Array" ∅, coreNode 7 "Array" ∅, coreNode 8 "Collect" ∅,
      coreNode 9 "Collect" ∅],
    iteratorWires ++ [wire 5 4 6 0, wire 6 5 6 1, wire 7 5 7 0, wire 8 4 7 1, wire 9 6 8 0,
      wire 10 7 9 0]⟩

/-- The one collector was asked for its value. -/
def loom : Session := (valueAt ⟨8⟩ "output" (load warp (start .default .builtin)).2).2

theorem warp_tame (r : NodeId) :
    (load warp (start .default .builtin)).2.engine.Tame .last r := by
  have acyclic : (load warp (start .default .builtin)).2.engine.graph.Acyclic :=
    Graph.acyclic_ofParts (fun id => id.index / 2) (by decide)
  refine ⟨acyclic, Engine.Untangled.inOrder (.ofParts ..) acyclic Catalogue.builtin_flowing ?_
    fun _ _ => rfl⟩
  have rises : ∀ c ∈ warp.connections, c.src.node.index / 2 < c.dest.node.index / 2 := by decide
  refine Engine.untangled_of_level (e := (load warp (start .default .builtin)).2.engine) (k := 2)
    (Graph.lt_of_transGen_ofParts (fun id => id.index / 2) rises) fun x hx => ?_
  obtain ⟨n, hn, hi⟩ := (Option.any_eq_true ..).1 hx
  obtain ⟨hmem, rfl⟩ := Graph.node?_ofParts hn
  have level : ∀ n ∈ warp.nodes, (Catalogue.builtin.definitionOf n).isIterator →
      n.id.index / 2 = 2 := by decide +kernel
  exact level n hmem hi

theorem loom_value_forget :
    (valueAt ⟨9⟩ "output" loom).1 = (valueAt ⟨9⟩ "output" loom.forget).1 := by
  have h : loom.Used (Engine.Tame .last) := .valueAt _ _ (warp_tame _) (.load _ (.start _))
  have ht : loom.engine.Tame .last ⟨9⟩ := by
    rw [loom, valueAt_engine]
    exact warp_tame _
  exact valueAt_forget h ht "output"

/-- The iterator 8 runs over what is collected from the iterators 4 and 5. The collector 10 binds it
before the iterator 4, the collector 12 after it. -/
def knot : Snapshot :=
  ⟨"knot", 1,
    iterators ++ [coreNode 6 "Array" ∅, coreNode 7 "Collect" ∅, coreNode 8 "Iterate" ∅,
      coreNode 9 "Array" ∅, coreNode 10 "Collect" ∅, coreNode 11 "Array" ∅,
      coreNode 12 "Collect" ∅],
    iteratorWires ++ [wire 5 4 6 0, wire 6 5 6 1, wire 7 6 7 0, wire 8 7 8 0, wire 9 8 9 0,
      wire 10 4 9 1, wire 11 9 10 0, wire 12 4 11 0, wire 13 8 11 1, wire 14 11 12 0]⟩

/-- The one collector was asked for its value. -/
def tangle : Session := (valueAt ⟨10⟩ "output" (load knot (start .default .builtin)).2).2

/-- Each element of the iterator 4, with what is collected while it is bound. -/
def untouched : Value :=
  .array [.array [.boolean true, .array [.boolean true, .boolean true]],
    .array [.boolean false, .array [.boolean false, .boolean true]]]

/-- A value that agrees with `v` if nothing is remembered, and does not if another value was asked
for before. -/
theorem valueAt_ne {a b : NodeId} {v : Value} (ha : (s.graph.node? a).isSome)
    (hb : (s.graph.node? b).isSome)
    (afresh : (s.engine.perform (v.agrees <$> Plan.value b (.root .root) "output")
      s.forget.table).1 = true)
    (again : (s.engine.perform (Plan.value a (.root .root) "output" >>= fun _ =>
      v.agrees <$> Plan.value b (.root .root) "output") s.table).1 = false) :
    (valueAt b "output" (valueAt a "output" s).2).1 ≠
      (valueAt b "output" (valueAt a "output" s).2.forget).1 := by
  have hs : (valueAt a "output" s).2 = (perform (Plan.value a (.root .root) "output") s).2 :=
    congrArg Prod.snd (valueAt_eq ha "output")
  rw [hs, valueAt_eq (s := (perform (Plan.value a (.root .root) "output") s).2) hb "output",
    valueAt_eq (s := (perform (Plan.value a (.root .root) "output") s).2.forget) hb "output"]
  intro h
  have h := congrArg v.agrees (Except.ok.inj h)
  exact Bool.false_ne_true (again.symm.trans (h.trans afresh))

/-- What is remembered of the one collector goes into the value of the other. -/
theorem tangle_value_differs : tangle.Used (fun _ _ => True) ∧
    (valueAt ⟨12⟩ "output" tangle).1 ≠ (valueAt ⟨12⟩ "output" tangle.forget).1 := by
  refine ⟨.valueAt _ _ trivial (.load _ (.start _)), ?_⟩
  exact valueAt_ne (v := untouched) (by decide +kernel) (by decide +kernel)
    (Engine.perform_fst_eq (d := 10) (by decide +kernel))
    (Engine.perform_fst_eq (d := 10) (by decide +kernel))

/-! ## A cycle -/

/-- The iterator 3 runs over an array that holds what the collector 4 collects from it. The
collector 5 takes its elements one by one. -/
def noose : Snapshot :=
  ⟨"noose", 1,
    [coreNode 0 "Boolean" ((∅ : Params).insert "value" (.boolean true)), coreNode 1 "Array" ∅,
      coreNode 2 "Array" ∅, coreNode 3 "Iterate" ∅, coreNode 4 "Collect" ∅, coreNode 5 "Collect" ∅],
    [wire 0 0 1 0, wire 1 4 1 1, wire 2 1 3 0, wire 3 3 4 0, wire 4 3 2 0, wire 5 2 5 0]⟩

/-- The collector on the cycle was asked for its value. -/
def snare : Session := (valueAt ⟨4⟩ "output" (load noose (start .default .builtin)).2).2

/-- The placeholder that cut the cycle short goes into the value of the other collector. -/
theorem snare_value_differs : snare.Used (fun _ _ => True) ∧
    (valueAt ⟨5⟩ "output" snare).1 ≠ (valueAt ⟨5⟩ "output" snare.forget).1 := by
  refine ⟨.valueAt _ _ trivial (.load _ (.start _)), ?_⟩
  exact valueAt_ne (v := .array [.array [.boolean true], .array [.array []]]) (by decide +kernel)
    (by decide +kernel) (Engine.perform_fst_eq (d := 10) (by decide +kernel))
    (Engine.perform_fst_eq (d := 10) (by decide +kernel))

end Session

end Dataflow
