import Dataflow.Graph.Id

/-! What a remembered answer is filed under. -/

namespace Dataflow.Memo

inductive Topic where
  | value
  | outputType
  | deliveredType
  | ports
  | connections
  deriving DecidableEq, Repr, Inhabited

def Topic.rank : Topic → Nat
  | value => 0
  | outputType => 1
  | deliveredType => 2
  | ports => 3
  | connections => 4

theorem Topic.rank_inj {s t : Topic} (h : s.rank = t.rank) : s = t := by
  cases s <;> cases t <;> first | rfl | cases h

/-- An iterator and the index of the element that it is bound to. -/
structure Position where
  node : NodeId
  index : Nat
  deriving DecidableEq, Repr, Inhabited

instance : Ord Position := ⟨compareLex (compareOn Position.node) (compareOn Position.index)⟩

instance : Std.TransOrd Position :=
  inferInstanceAs (Std.TransCmp (compareLex (compareOn Position.node) (compareOn Position.index)))

instance : Std.LawfulEqOrd Position where
  eq_of_compare {a b} h := by
    cases a; cases b
    obtain ⟨h₁, h₂⟩ := compareLex_eq_eq.1 h
    exact congr (congrArg Position.mk (Std.LawfulEqOrd.eq_of_compare h₁))
      (Std.LawfulEqOrd.eq_of_compare h₂)

/-- A question about a node: which one, in which surroundings, and a word that tells it from others
of its topic. Surroundings are the positions of the bound iterators (`Key.inScope`), or the nodes
whose types are provisional (`Key.inContext`); at the root there are none of either. -/
structure Key where
  topic : Topic
  node : NodeId
  scope : List Position
  context : List NodeId
  word : String
  deriving DecidableEq, Repr, Inhabited

namespace Key

def inScope (topic : Topic) (node : NodeId) (scope : List Position) (word : String) : Key :=
  ⟨topic, node, scope, [], word⟩

def inContext (topic : Topic) (node : NodeId) (context : List NodeId) (word : String) : Key :=
  ⟨topic, node, [], context, word⟩

def order (a b : Key) : Ordering :=
  (compare a.node b.node).then <| (compare a.topic.rank b.topic.rank).then <|
    (compare a.word b.word).then <| (compare a.context b.context).then <|
      compare a.scope b.scope

instance : Ord Key := ⟨order⟩

instance : Std.TransOrd Key :=
  inferInstanceAs (Std.TransCmp
    (compareLex (compareOn node) <| compareLex (compareOn (·.topic.rank)) <|
      compareLex (compareOn word) <| compareLex (compareOn context) (compareOn scope)))

theorem eq_of_order {a b : Key} (h : order a b = .eq) : a = b := by
  obtain ⟨hn, h⟩ := Ordering.then_eq_eq.1 h
  obtain ⟨ht, h⟩ := Ordering.then_eq_eq.1 h
  obtain ⟨hw, h⟩ := Ordering.then_eq_eq.1 h
  obtain ⟨hc, hs⟩ := Ordering.then_eq_eq.1 h
  cases a; cases b
  simp only [Std.LawfulEqCmp.compare_eq_iff_eq] at hn ht hw hc hs
  simp only [hn, Topic.rank_inj ht, hw, hc, hs]

instance : Std.LawfulEqOrd Key where
  eq_of_compare := eq_of_order

end Key

end Dataflow.Memo
