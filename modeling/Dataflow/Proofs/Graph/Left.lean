import Dataflow.Memo.Key
import Dataflow.Proofs.Graph.WellFormed

/-! What is left of a graph, where nodes are taken one after the other, or where answers that lie at
the start of connections are being looked for. -/

namespace Dataflow

open Memo (Key)

theorem countP_lt {α : Type} {p q : α → Bool} {l : List α} (h : ∀ a, p a → q a) {a : α}
    (ha : a ∈ l) (hp : p a = false) (hq : q a) : l.countP p < l.countP q := by
  induction l with
  | nil => cases ha
  | cons b l ih =>
    rw [List.countP_cons, List.countP_cons]
    rcases List.mem_cons.1 ha with rfl | ha
    · have := List.countP_mono_left (l := l) fun a _ => h a
      rw [hp, hq]
      simp only [Bool.false_eq_true, if_false, if_true]
      omega
    · have := ih ha
      have := h b
      split <;> grind

namespace Graph

variable {g : Graph} {c : Connection} {n : Node} {id : NodeId} {working : List Key}

/-- How many nodes are not taken. -/
def nodesLeft (g : Graph) (taken : NodeId → Bool) : Nat := g.nodeList.countP fun n => !taken n.id

/-- How many connections start where nothing is being looked for. -/
def sourcesLeft (g : Graph) (working : List Key) (file : NodeId → String → Key) : Nat :=
  g.connectionList.countP fun c => file c.src.node c.src.key ∉ working

theorem nodesLeft_le (g : Graph) (taken : NodeId → Bool) : g.nodesLeft taken ≤ g.nodeList.length :=
  List.countP_le_length

theorem sourcesLeft_le (g : Graph) (working : List Key) (file : NodeId → String → Key) :
    g.sourcesLeft working file ≤ g.connectionList.length :=
  List.countP_le_length

theorem WellFormed.nodesLeft_lt (hg : g.WellFormed) {taken taken' : NodeId → Bool}
    (h : ∀ a, taken a → taken' a) (hn : (g.node? id).isSome) (hid : taken id = false)
    (hid' : taken' id) : g.nodesLeft taken' < g.nodesLeft taken := by
  obtain ⟨n, hn⟩ := Option.isSome_iff_exists.1 hn
  obtain rfl := hg.node_id hn
  refine countP_lt (fun m hm => ?_) (Tables.mem_values.2 ⟨_, hn⟩) (by simp [hid']) (by simp [hid])
  have := h m.id
  grind

theorem sourcesLeft_lt {file : NodeId → String → Key} (hc : c ∈ g.connectionList)
    (hk : file c.src.node c.src.key ∉ working) :
    g.sourcesLeft (file c.src.node c.src.key :: working) file < g.sourcesLeft working file :=
  countP_lt (fun d hd => by simp at hd ⊢; exact hd.2) hc (by simp) (by simpa using hk)

end Graph

end Dataflow
