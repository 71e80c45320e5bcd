import Dataflow.Proofs.Engine.Settled

/-! Questions about what the graph holds: its nodes, the connections at their keys, and the ports
that they show (`Query.AboutStore`). These are answered right whatever the kinds of nodes ask for
besides. -/

namespace Dataflow

open Memo (Table Key)

/-! ## The ports that a node shows -/

namespace Graph

/-- A row of duplicates shows the slots that are taken and the least free one; any other group of
ports shows slot zero alone. -/
def shownSlots (g : Graph) (id : NodeId) (s : PortSpec) : List Nat :=
  match s.mode with
  | .duplicate =>
    let taken := g.takenSlots ⟨id, s.key, s.role, 0⟩
    (Std.ExtTreeSet.ofList (leastFree taken :: taken) compare).toList
  | .single | .multiple => [0]

def shownAt (g : Graph) (id : NodeId) (s : PortSpec) : List Port :=
  (g.shownSlots id s).map fun slot => ⟨id, s.key, s.role, s.mode, slot⟩

def shown (g : Graph) (n : Node) : List Port := (n.ports.map (g.shownAt n.id)).flatten

end Graph

/-! ## Answers that the graph gives -/

/-- Only the graph is asked about. -/
def Query.AboutStore : Query → Prop
  | node _ | connectionsInto _ _ | connectionsFrom _ _ | ports _ => True
  | _ => False

theorem Query.AboutStore.aboutTypes {q : Query} (h : q.AboutStore) : q.AboutTypes := by
  cases q <;> trivial

/-- What is answered about the graph is what it holds. -/
structure Graph.Answers (g : Graph) (right : (q : Query) → q.Answer → Prop) : Prop where
  node : ∀ {id n}, right (.node id) n → n = g.node? id
  connectionsInto : ∀ {id key cs}, right (.connectionsInto id key) cs →
    cs = g.connectionsInto id key
  connectionsFrom : ∀ {id key cs}, right (.connectionsFrom id key) cs →
    cs = g.connectionsFrom id key
  ports : ∀ {id ps}, right (.ports id) ps → ps = (g.node? id).map g.shown

/-- It is enough that answers about the graph are right. -/
theorem Graph.Answers.about_store {g : Graph} {right : (q : Query) → q.Answer → Prop}
    (h : g.Answers right) : g.Answers fun q a => q.AboutStore → right q a :=
  ⟨fun ha => h.node (ha trivial), fun ha => h.connectionsInto (ha trivial),
    fun ha => h.connectionsFrom (ha trivial), fun ha => h.ports (ha trivial)⟩

namespace Engine

theorem portsOfSpec_ends {P : Query → Prop} {right : (q : Query) → q.Answer → Prop} {g : Graph}
    (hg : ∀ {id key cs}, right (.connectionsInto id key) cs → cs = g.connectionsInto id key)
    (hP : ∀ id key, P (.connectionsInto id key)) (n : Node) (s : PortSpec) :
    (portsOfSpec n s).Ends P right (g.shownAt n.id s = ·) := by
  unfold portsOfSpec Graph.shownAt Graph.shownSlots
  cases s.mode with
  | single => exact .pure rfl
  | multiple => exact .pure rfl
  | duplicate =>
    refine Plan.Ends.bind (.query (hP n.id s.key)) fun cs hcs => ?_
    obtain rfl := hg hcs
    exact .pure rfl

theorem portsPlan_ends {P : Query → Prop} {right : (q : Query) → q.Answer → Prop} {g : Graph}
    (hg : ∀ {id key cs}, right (.connectionsInto id key) cs → cs = g.connectionsInto id key)
    (hP : ∀ id key, P (.connectionsInto id key)) (n : Node) :
    (portsPlan n).Ends P right (g.shown n = ·) :=
  .bind (.mapM_eq fun s _ => portsOfSpec_ends hg hP n s) fun _ hps => .pure (congrArg _ hps)

variable {e : Engine}

theorem method_within_store {q : Query} (hq : q.AboutStore)
    {right : (q : Query) → q.Answer → Prop} : (e.method q).Within Query.AboutStore right := by
  cases q with
  | ports id =>
    simp only [method]
    split
    · trivial
    · exact portsPlan_within fun _ => trivial
  | node | connectionsInto | connectionsFrom => trivial
  | _ => cases hq

theorem store_apart : Apart Query.AboutStore := by
  intro q q' k hq hk hq' hk'
  obtain rfl := Query.eq_of_key? hq.aboutTypes (Option.isSome_iff_exists.2 ⟨k, hk⟩)
    (hk.trans hk'.symm)
  exact hq' hq

variable {o : Precedence} {P : Query → Prop} {α : Type} {t : Table}

theorem right_ports {id : NodeId} {ps : Option (List Port)} (h : e.Right o (.ports id) ps) :
    ps = (e.graph.node? id).map e.graph.shown := by
  cases hn : e.graph.node? id with
  | none =>
    refine h 1 _ {id} ?_
    change (e.placed o (.ports id)).read _ = _
    simp only [placed, method, hn]
    rfl
  | some n =>
    obtain ⟨d, a, reads, ha, rfl⟩ := run_settled (e := e)
      (portsPlan_ends right_connectionsInto settles_connectionsInto n)
    refine h (d + 1) _ ({id} ∪ reads) ?_
    change (e.placed o (.ports id)).read _ = _
    simp only [placed, method, hn]
    exact Reading.andThen_some.2 ⟨_, _, ha, rfl⟩

theorem answers_right : e.graph.Answers (e.Right o) :=
  ⟨right_node, right_connectionsInto, right_connectionsFrom, right_ports⟩

/-! ## Their domain -/

theorem storeDomain : e.Domain o Query.AboutStore Query.AboutStore where
  counted hq := hq
  closed hq := method_within_store hq
  placed hq := .inl (placed_of_aboutTypes hq.aboutTypes)
  keyed hq _ hk hk' _ := by
    obtain rfl := Query.eq_of_key? hq.aboutTypes
      (Option.isSome_iff_exists.2 ⟨_, e.method_key? hk⟩)
      ((e.method_key? hk).trans (e.method_key? hk').symm)
    rfl

/-- A plan that asks anything at all ends as it does with right answers about the domain. -/
theorem Domain.perform_ends (hD : e.Domain o P P) (hP : Apart P) {Q : α → Prop} {p : Plan α}
    (h : p.Ends (fun _ => True) (fun q a => P q → e.Right o q a) Q) (ht : e.Sound o P t) :
    Q (e.perform p t).1 := by
  induction p generalizing t with
  | done a => exact h
  | ask q next ih =>
    have hs : e.Sound o P (e.ask q t).2 := by
      have hs := hD.perform_sound_of_apart hP (p := Plan.query q) ht
      rwa [perform, Plan.run_query] at hs
    exact ih _ (h.2 _ fun hq => hD.ask_right hq ht) hs

end Engine

end Dataflow
