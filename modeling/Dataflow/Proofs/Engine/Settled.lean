import Dataflow.Proofs.Engine.Types
import Dataflow.Proofs.Graph.Acyclic

/-! Questions that have an answer without a memory (`Settles`).

In a graph without a cycle all questions about types have one: what is produced is found from what
lies upstream, and what is demanded from what lies downstream. -/

namespace Dataflow.Engine

variable {o : Precedence} {e : Engine} {α : Type} {q : Query}

/-- The question has an answer without a memory. -/
def Settles (o : Precedence) (e : Engine) (q : Query) : Prop := ∃ d, (e.plain o d q).isSome

theorem Settles.intro {d : Nat} {x : q.Answer × NodeSet} (h : e.plain o d q = some x) :
    e.Settles o q :=
  ⟨d, Option.isSome_iff_exists.2 ⟨x, h⟩⟩

theorem Settles.exists (h : e.Settles o q) : ∃ d a reads, e.plain o d q = some (a, reads) := by
  obtain ⟨d, hd⟩ := h
  obtain ⟨⟨a, reads⟩, ha⟩ := Option.isSome_iff_exists.1 hd
  exact ⟨d, a, reads, ha⟩

theorem right_of_plain {d : Nat} {a : q.Answer} {reads : NodeSet}
    (h : e.plain o d q = some (a, reads)) : e.Right o q a := by
  intro d' b reads' hb
  exact (Prod.mk.inj (plain_unique h hb)).1

/-! ## Plans that come to an end -/

theorem run_settled {p : Plan α} {Q : α → Prop} (h : p.Ends (e.Settles o) (e.Right o) Q) :
    ∃ d a reads, p.run (e.plain o d) = some (a, reads) ∧ Q a := by
  induction p with
  | done a => exact ⟨0, a, ∅, rfl, h⟩
  | ask q next ih =>
    obtain ⟨d, b, r, hb⟩ := h.1.exists
    obtain ⟨d', a, s, ha, hQ⟩ := ih b (h.2 b (right_of_plain hb))
    exact ⟨max d d', a, r ∪ s, Plan.run_ask_some.2 ⟨b, r, s, plain_mono (Nat.le_max_left ..) hb,
      run_plain_mono (Nat.le_max_right ..) ha, rfl⟩, hQ⟩

theorem read_settled {m : Method α} (h : m.Within (e.Settles o) (e.Right o)) :
    ∃ d x, m.read (e.plain o d) = some x := by
  cases m with
  | known a reads => exact ⟨0, (a, reads), rfl⟩
  | plan p =>
    obtain ⟨d, a, reads, hp, -⟩ := run_settled h
    exact ⟨d, (a, reads), hp⟩
  | framed p =>
    obtain ⟨d, a, reads, hp, -⟩ := run_settled h
    exact ⟨d, _, Reading.andThen_some.2 ⟨a, reads, hp, rfl⟩⟩
  | remembered early slot p view =>
    obtain ⟨d, a, reads, hp, -⟩ := run_settled h
    exact ⟨d, _, Reading.andThen_some.2 ⟨a, reads, hp, rfl⟩⟩

theorem settles_of_within (hq : e.placed o q = e.method q)
    (h : (e.method q).Within (e.Settles o) (e.Right o)) : e.Settles o q := by
  obtain ⟨d, x, hx⟩ := read_settled h
  refine .intro (d := d + 1) (x := x) ?_
  change (e.placed o q).read _ = _
  rw [hq]
  exact hx

/-- Every right answer to a question that takes a plan is a result that the plan ends with. -/
theorem right_of_ends {p : Plan q.Answer} (hq : e.placed o q = .plan p) {Q : q.Answer → Prop}
    (h : p.Ends (e.Settles o) (e.Right o) Q) : e.Settles o q ∧ ∀ a, e.Right o q a → Q a := by
  obtain ⟨d, a, reads, ha, hQ⟩ := run_settled h
  have hd : e.plain o (d + 1) q = some (a, reads) := by
    change (e.placed o q).read _ = _
    rw [hq]
    exact ha
  exact ⟨.intro hd, fun b hb => hb _ _ _ hd ▸ hQ⟩

/-! ## Answers that the graph gives -/

theorem settles_node (id : NodeId) : e.Settles o (.node id) := ⟨1, rfl⟩

theorem settles_connectionsInto (id : NodeId) (key : String) :
    e.Settles o (.connectionsInto id key) := ⟨1, rfl⟩

theorem settles_connectionsFrom (id : NodeId) (key : String) :
    e.Settles o (.connectionsFrom id key) := ⟨1, rfl⟩

theorem settles_emptyValue (type : ValueType) : e.Settles o (.emptyValue type) := ⟨1, rfl⟩

theorem settles_limit : e.Settles o .limit := ⟨1, rfl⟩

theorem right_node {id : NodeId} {n : Option Node} (h : e.Right o (.node id) n) :
    n = e.graph.node? id :=
  h 1 _ _ rfl

theorem right_connectionsInto {id : NodeId} {key : String} {cs : List Connection}
    (h : e.Right o (.connectionsInto id key) cs) : cs = e.graph.connectionsInto id key :=
  h 1 _ _ rfl

theorem right_connectionsFrom {id : NodeId} {key : String} {cs : List Connection}
    (h : e.Right o (.connectionsFrom id key) cs) : cs = e.graph.connectionsFrom id key :=
  h 1 _ _ rfl

/-! ## Types -/

section Types

variable (hg : e.graph.WellFormed) (ha : e.graph.Acyclic)
  (hc : e.catalogue.All NodeDefinition.Layered)

include hg ha hc

theorem settles_outputType (id : NodeId) (key : String) (context : Context) :
    e.Settles o (.outputType id key context) := by
  induction id using (ha.wellFounded hg).induction generalizing key with
  | _ id ih =>
    refine settles_of_within rfl ?_
    refine Plan.Ends.bind (.query (settles_node id)) fun n hn => ?_
    cases n with
    | none => exact Plan.Within.pure _
    | some n =>
      obtain rfl := hg.node_id (right_node hn).symm
      refine (hc n.module n.type).outputType ⟨settles_node, settles_connectionsInto n.id, ?_⟩ key
      intro key cs c hcs hmem
      obtain rfl := right_connectionsInto hcs
      exact ih _ (hg.feeds_of_mem_connectionsInto hmem) _

/-- A demanded type rests on the delivered type, and this on what the consumers demand. So the
induction goes down along the connections. -/
theorem settles_deliveredType (id : NodeId) (key : String) (context : Context) :
    e.Settles o (.deliveredType id key context) ∧ e.Settles o (.expectedType id key context) := by
  induction id using (ha.wellFounded_swap hg).induction generalizing key context with
  | _ id ih =>
    have delivered (key : String) : e.Settles o (.deliveredType id key context) := by
      refine settles_of_within rfl ?_
      simp only [method]
      split
      · trivial
      refine Plan.Within.bind (.query (settles_outputType hg ha hc ..)) fun _ => ?_
      refine Plan.Ends.bind (.query (settles_connectionsFrom id key)) fun cs hcs => ?_
      obtain rfl := right_connectionsFrom hcs
      exact Plan.Within.bind (.mapM fun c hmem =>
        .query (ih _ (hg.feeds_of_mem_connectionsFrom hmem) _ _).2) fun _ => .pure _
    refine ⟨delivered key, settles_of_within rfl ?_⟩
    refine Plan.Ends.bind (.query (settles_node id)) fun n hn => ?_
    cases n with
    | none => exact Plan.Within.pure _
    | some n =>
      obtain rfl := hg.node_id (right_node hn).symm
      refine Plan.Within.bind ((hc n.module n.type).inputType (delivered "output") key) fun t => ?_
      cases t <;> exact Plan.Within.pure _

end Types

end Dataflow.Engine
