import Dataflow.Proofs.Definition.Inferred
import Dataflow.Proofs.Engine.Reply
import Dataflow.Proofs.Engine.Settled
import Dataflow.Proofs.Graph.Cardinality

/-! How types are asked for in a graph without a cycle.

Going up, what a node produces rests on what the nodes before it produce (`reply_produced`). Going
down, what it delivers rests on what is expected at the nodes after it (`reply_deliver`). The
contexts in which the questions are asked make no difference, as long as they are `Clear`
(`reply_delivered_expected`). -/

namespace Dataflow.Engine

open Relation (ReflTransGen)

/-- A graph without a cycle over the kinds of nodes that there are from the outset, which are those
of `Catalogue.builtin`. -/
structure Grounded (e : Engine) : Prop where
  wellFormed : e.graph.WellFormed
  acyclic : e.graph.Acyclic
  catalogue : e.catalogue = .builtin

/-- Besides, the nodes have the ports of their kinds (`KeepsPorts`), and the connections keep to the
modes (`Fitted`). -/
structure Proper (e : Engine) : Prop extends Grounded e where
  fitted : e.graph.Fitted
  ports : ∀ {id n}, e.graph.node? id = some n → n.ports = (e.definition n).ports

/-- The type that a node produces at a key. -/
def produced (e : Engine) (id : NodeId) (key : String) : ValueType :=
  e.reply (.outputType id key .root)

/-- The type that a node delivers at a key to those it feeds. -/
def delivered (e : Engine) (id : NodeId) (key : String) : ValueType :=
  e.reply (.deliveredType id key .root)

/-- The type that a node expects at a key. -/
def expected (e : Engine) (id : NodeId) (key : String) : ValueType :=
  e.reply (.expectedType id key .root)

variable {e : Engine} {id : NodeId} {key : String} {context : Context} {n : Node}

section

variable {o : Precedence} {P K : Query → Prop} {q : Query}

/-- The answer to a question that settles is what its plan comes to, with the answers of `reply`. -/
theorem reply_eq_eval (hD : e.Domain o P K) (hP : P q) (hs : e.Settles o q) {p : Plan q.Answer}
    (hw : p.Within P (e.Right o))
    (hp : ∀ {f a reads}, (e.placed o q).read f = some (a, reads) → ∃ r, p.run f = some (a, r)) :
    e.reply q = p.eval e.reply := by
  obtain ⟨d, a, reads, h⟩ := hs.exists
  cases d with
  | zero => cases h
  | succ d =>
    obtain ⟨r, hr⟩ := hp h
    rw [hD.reply_right hP (d + 1) a reads h, hD.eval_of_run hw hr]

end

/-- With whatever is remembered of earlier questions, the answer is that of an engine that remembers
nothing: a plan leaves a sound table sound, and two sound tables give the same answer
(`Domain.ask_fst`). -/
theorem ask_remembered (hc : e.catalogue.Typed) {α : Type} (counting : Bool) (earlier : Plan α)
    {q : Query} (hq : q.AboutTypes) :
    (e.ask q (e.perform earlier (.empty counting)).2).1 = e.reply q := by
  have hD : e.Domain .last Query.AboutTypes Query.AboutTypes := typesDomain hc fun _ => id
  exact hD.ask_fst hq (hD.perform_sound_of_apart types_apart (.of_empty rfl)) (.of_empty rfl)

/-! ## What the plans come to -/

theorem eval_outputTypePlan (hn : e.graph.node? id = some n) :
    (e.outputTypePlan id key context).eval e.reply =
      ((e.definition n).outputType n key context).eval e.reply := by
  simp only [outputTypePlan, Plan.eval_bind, Plan.eval_node?, reply_node, hn]

theorem eval_outputTypePlan_none (hn : e.graph.node? id = none) :
    (e.outputTypePlan id key context).eval e.reply = missing id := by
  simp only [outputTypePlan, Plan.eval_bind, Plan.eval_node?, reply_node, hn]
  rfl

theorem eval_deliveredTypePlan :
    (e.deliveredTypePlan id key context).eval e.reply =
      .deliver e.catalogue.kinds (e.reply (.outputType id key (context.withProvisional id)))
        (.unifyAll ((e.graph.connectionsFrom id key).map fun c =>
          e.reply (.expectedType c.dest.node c.dest.key (context.withProvisional id)))) := by
  simp only [deliveredTypePlan, Plan.eval_bind, Plan.eval_outputType, Plan.eval_connectionsFrom,
    reply_connectionsFrom, Plan.eval_mapM, Plan.eval_expectedType, Plan.eval_pure]

theorem eval_expectedTypePlan (hn : e.graph.node? id = some n) :
    (e.expectedTypePlan id key context).eval e.reply =
      (((e.definition n).inputType n key context).eval e.reply).getD
        (.mismatch s!"connection target {n.label} is missing input key {key}") := by
  simp only [expectedTypePlan, Plan.eval_bind, Plan.eval_node?, reply_node, hn]
  cases ((e.definition n).inputType n key context).eval e.reply <;> rfl

theorem eval_expectedTypePlan_none (hn : e.graph.node? id = none) :
    (e.expectedTypePlan id key context).eval e.reply = missing id := by
  simp only [expectedTypePlan, Plan.eval_bind, Plan.eval_node?, reply_node, hn]
  rfl

/-- No node of the context is reached from the node, the node itself among them. -/
def Clear (g : Graph) (context : Context) (id : NodeId) : Prop :=
  ∀ a ∈ context.nodes, ¬ReflTransGen g.Feeds id a

theorem clear_root (g : Graph) (id : NodeId) : Clear g .root id :=
  fun _ ha => absurd ha Std.ExtTreeSet.not_mem_empty

theorem Clear.provisional? {g : Graph} (hc : Clear g context id) :
    context.provisional? id = none := by
  have hid : id ∉ context.nodes := fun ha => hc id ha .refl
  simp [Context.provisional?, hid]

theorem mem_withProvisional {a : NodeId} :
    a ∈ (context.withProvisional id).nodes ↔ a = id ∨ a ∈ context.nodes :=
  Tables.mem_insert

/-- While the nodes after it are asked, nothing leads back to a node. -/
theorem Clear.feeds {g : Graph} (ha : g.Acyclic) (hc : Clear g context id) {b : NodeId}
    (hf : g.Feeds id b) : Clear g (context.withProvisional id) b := by
  intro a hmem hp
  rcases mem_withProvisional.1 hmem with rfl | hmem
  · exact ha _ (.head' hf hp)
  · exact hc a hmem (hp.head hf)

namespace Grounded

variable (h : e.Grounded)

include h

theorem all {Q : NodeDefinition → Prop} (hQ : Catalogue.builtin.All Q) : e.catalogue.All Q :=
  h.catalogue ▸ hQ

theorem typed : e.catalogue.Typed := h.all Catalogue.builtin_typed

theorem reply_outputType (id : NodeId) (key : String) (context : Context) :
    e.reply (.outputType id key context) = (e.outputTypePlan id key context).eval e.reply := by
  refine reply_eq_eval (o := .last) (q := .outputType id key context)
    (typesDomain h.typed fun _ hq => hq) trivial
    (settles_outputType h.wellFormed h.acyclic (h.all Catalogue.builtin_layered) ..)
    (outputTypePlan_within h.typed ..) fun {f a reads} hread => ?_
  obtain ⟨b, r, hp, hb⟩ := Reading.andThen_some.1 hread
  exact ⟨r, (Prod.mk.inj hb).1 ▸ hp⟩

theorem reply_deliveredType (hp : context.provisional? id = none) (key : String) :
    e.reply (.deliveredType id key context) =
      (e.deliveredTypePlan id key context).eval e.reply := by
  refine reply_eq_eval (o := .last) (q := .deliveredType id key context)
    (typesDomain h.typed fun _ hq => hq) trivial
    (settles_deliveredType h.wellFormed h.acyclic (h.all Catalogue.builtin_layered) ..).1
    (deliveredTypePlan_within ..) fun {f a reads} hread => ?_
  simp only [placed, method, hp] at hread
  obtain ⟨b, r, hp, hb⟩ := Reading.andThen_some.1 hread
  exact ⟨r, (Prod.mk.inj hb).1 ▸ hp⟩

theorem reply_expectedType (id : NodeId) (key : String) (context : Context) :
    e.reply (.expectedType id key context) = (e.expectedTypePlan id key context).eval e.reply := by
  refine reply_eq_eval (o := .last) (q := .expectedType id key context)
    (typesDomain h.typed fun _ hq => hq) trivial
    (settles_deliveredType h.wellFormed h.acyclic (h.all Catalogue.builtin_layered) ..).2
    (expectedTypePlan_within h.typed ..) fun {f a reads} hread => ⟨reads, hread⟩

/-! ## Contexts make no difference -/

theorem reply_produced (id : NodeId) (key : String) (context : Context) :
    e.reply (.outputType id key context) = e.produced id key := by
  induction id using (h.acyclic.wellFounded h.wellFormed).induction generalizing key with
  | _ id ih =>
    rw [produced, h.reply_outputType, h.reply_outputType]
    cases hn : e.graph.node? id with
    | none => rw [eval_outputTypePlan_none hn, eval_outputTypePlan_none hn]
    | some n =>
      rw [eval_outputTypePlan hn, eval_outputTypePlan hn]
      obtain rfl := h.wellFormed.node_id hn
      refine (h.all Catalogue.builtin_inferred n.module n.type).outputType
        ⟨fun _ => rfl, fun _ => rfl, fun {key c} hc => ?_⟩ key
      rw [reply_connectionsInto] at hc
      exact ih _ (h.wellFormed.feeds_of_mem_connectionsInto hc) _

/-- What is delivered, once it is known what the nodes after it expect while the node is
provisional. -/
theorem reply_deliver (hc : Clear e.graph context id) {key : String}
    (hx : ∀ c ∈ e.graph.connectionsFrom id key,
      e.reply (.expectedType c.dest.node c.dest.key (context.withProvisional id)) =
        e.expected c.dest.node c.dest.key) :
    e.reply (.deliveredType id key context) = .deliver e.catalogue.kinds (e.produced id key)
      (.unifyAll ((e.graph.connectionsFrom id key).map fun c =>
        e.expected c.dest.node c.dest.key)) := by
  rw [h.reply_deliveredType hc.provisional?, eval_deliveredTypePlan, h.reply_produced]
  exact congrArg (fun ts => ValueType.deliver _ _ (.unifyAll ts)) (List.map_congr_left hx)

theorem reply_delivered_expected (hc : Clear e.graph context id) (key : String) :
    e.reply (.deliveredType id key context) = e.delivered id key ∧
      e.reply (.expectedType id key context) = e.expected id key := by
  induction id using (h.acyclic.wellFounded_swap h.wellFormed).induction
    generalizing key context with
  | _ id ih =>
    have after {context : Context} (hc : Clear e.graph context id) {key : String} {c : Connection}
        (hmem : c ∈ e.graph.connectionsFrom id key) :
        e.reply (.expectedType c.dest.node c.dest.key (context.withProvisional id)) =
          e.expected c.dest.node c.dest.key :=
      have hf := h.wellFormed.feeds_of_mem_connectionsFrom hmem
      (ih _ hf (hc.feeds h.acyclic hf) _).2
    have hdelivered (key : String) : e.reply (.deliveredType id key context) = e.delivered id key :=
      (h.reply_deliver hc fun _ => after hc).trans
        (h.reply_deliver (clear_root e.graph id) fun _ => after (clear_root e.graph id)).symm
    refine ⟨hdelivered key, ?_⟩
    rw [expected, h.reply_expectedType, h.reply_expectedType]
    cases hn : e.graph.node? id with
    | none => rw [eval_expectedTypePlan_none hn, eval_expectedTypePlan_none hn]
    | some n =>
      rw [eval_expectedTypePlan hn, eval_expectedTypePlan hn]
      obtain rfl := h.wellFormed.node_id hn
      have hinput := (h.all Catalogue.builtin_inferred n.module n.type).inputType
        (hdelivered "output") key
      exact congrArg (fun t : Option ValueType => t.getD _) hinput

theorem delivered_deliver (id : NodeId) (key : String) :
    e.delivered id key = .deliver e.catalogue.kinds (e.produced id key)
      (.unifyAll ((e.graph.connectionsFrom id key).map fun c =>
        e.expected c.dest.node c.dest.key)) := by
  refine h.reply_deliver (clear_root e.graph id) fun c hmem => ?_
  have hf := h.wellFormed.feeds_of_mem_connectionsFrom hmem
  exact (h.reply_delivered_expected ((clear_root e.graph id).feeds h.acyclic hf) _).2

end Grounded

/-- Whatever has been asked before, what a node delivers is what it produces, matched with all that
is expected at the nodes it feeds (`delivered_deliver`); and a context with neither the node nor one
that it leads to, which is one that is `Clear`, makes no difference (`reply_delivered_expected`).

What is remembered plays no part in this by `ask_remembered`. -/
theorem delivered_solves (h : e.Grounded) {α : Type} (counting : Bool) (earlier : Plan α)
    (id : NodeId) (key : String) (hcontext : Clear e.graph context id) :
    let answer (q : Query) : q.Answer := (e.ask q (e.perform earlier (.empty counting)).2).1
    answer (.deliveredType id key .root) =
        .deliver e.catalogue.kinds (answer (.outputType id key .root))
          (.unifyAll ((answer (.connectionsFrom id key)).map fun c =>
            answer (.expectedType c.dest.node c.dest.key .root))) ∧
      answer (.deliveredType id key context) = answer (.deliveredType id key .root) := by
  intro answer
  have hanswer (q : Query) (hq : q.AboutTypes) : answer q = e.reply q :=
    ask_remembered h.typed counting earlier hq
  have hfrom : answer (.connectionsFrom id key) = e.graph.connectionsFrom id key :=
    (hanswer (.connectionsFrom id key) trivial).trans (reply_connectionsFrom id key)
  have hexpected (c : Connection) : answer (.expectedType c.dest.node c.dest.key .root) =
      e.expected c.dest.node c.dest.key :=
    hanswer (.expectedType c.dest.node c.dest.key .root) trivial
  simp only [hfrom, hexpected]
  rw [hanswer (.deliveredType id key .root) trivial, hanswer (.outputType id key .root) trivial,
    hanswer (.deliveredType id key context) trivial]
  exact ⟨h.delivered_deliver id key, (h.reply_delivered_expected hcontext key).1⟩

/-- A number that is put into an array. -/
def boxed : Engine :=
  ⟨.ofParts [⟨⟨0⟩, "Core", "Number", ∅, (NodeDefinition.literal .number).ports⟩,
      ⟨⟨1⟩, "Core", "Array", ∅, NodeDefinition.array.ports⟩]
    [⟨⟨0⟩, ⟨⟨0⟩, "output", .output, 0⟩, ⟨⟨1⟩, "input", .input, 0⟩⟩], .builtin, 0⟩

/-- It makes no difference to what the array delivers that the number counts as unresolved. -/
theorem boxed_delivered_solves :
    let answer (q : Query) : q.Answer :=
      (boxed.ask q (boxed.perform (Plan.deliveredType ⟨0⟩ "output" .root) (.empty false)).2).1
    answer (.deliveredType ⟨1⟩ "output" .root) =
        .deliver boxed.catalogue.kinds (answer (.outputType ⟨1⟩ "output" .root))
          (.unifyAll ((answer (.connectionsFrom ⟨1⟩ "output")).map fun c =>
            answer (.expectedType c.dest.node c.dest.key .root))) ∧
      answer (.deliveredType ⟨1⟩ "output" (Context.root.withProvisional ⟨0⟩)) =
        answer (.deliveredType ⟨1⟩ "output" .root) := by
  have hlevel : ∀ c ∈
      [(⟨⟨0⟩, ⟨⟨0⟩, "output", .output, 0⟩, ⟨⟨1⟩, "input", .input, 0⟩⟩ : Connection)],
      c.src.node.index < c.dest.node.index := by decide
  refine delivered_solves ⟨.ofParts .., Graph.acyclic_ofParts NodeId.index hlevel, rfl⟩ _ _ _ _ ?_
  intro a hmem hp
  obtain rfl := (mem_withProvisional.1 hmem).resolve_right Std.ExtTreeSet.not_mem_empty
  rcases Relation.reflTransGen_iff_eq_or_transGen.1 hp with heq | hp
  · cases heq
  · exact absurd (Graph.lt_of_transGen_ofParts NodeId.index hlevel hp) (by decide)

end Dataflow.Engine
