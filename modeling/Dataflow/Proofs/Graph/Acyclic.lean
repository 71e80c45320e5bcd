import Dataflow.Proofs.Graph.Reach

/-! Graphs without a cycle, and the one change that could close one (`Acyclic.joined`). -/

namespace Dataflow.Graph

open Relation (ReflTransGen TransGen)

/-- No node is reached from itself along one connection or more, in the sense of `Feeds`. -/
def Acyclic (g : Graph) : Prop := ∀ a, ¬TransGen g.Feeds a a

variable {g g' : Graph} {c : Connection} {a b : NodeId}

theorem Acyclic.mono (h : g.Acyclic) (hle : ∀ a b, g'.Feeds a b → g.Feeds a b) : g'.Acyclic :=
  fun a hc => h a (TransGen.mono hle a a hc)

/-- A relation without a cycle is well founded if what lies before a node is a finite set. -/
theorem wellFounded_of_finite {r : NodeId → NodeId → Prop} (before : NodeId → NodeSet)
    (hb : ∀ {a b}, a ∈ before b ↔ ReflTransGen r a b) (hr : ∀ a, ¬TransGen r a a) :
    WellFounded r := by
  let rank (a : NodeId) : Nat := (before a).toList.toFinset.card
  have mem {a b : NodeId} : a ∈ (before b).toList.toFinset ↔ ReflTransGen r a b := by
    rw [List.mem_toFinset, Std.ExtTreeSet.mem_toList, hb]
  refine Subrelation.wf (r := InvImage (· < ·) rank) (fun {a b} hab => ?_)
    (InvImage.wf _ Nat.lt_wfRel.wf)
  -- all that lies before `a` lies before `b`, and `b` itself does not lie before `a`
  refine Finset.card_lt_card (Finset.ssubset_iff_of_subset ?_ |>.2 ⟨b, mem.2 .refl, ?_⟩)
  · intro x hx
    exact mem.2 ((mem.1 hx).tail hab)
  · intro hba
    exact hr b (.tail' (mem.1 hba) hab)

theorem Acyclic.wellFounded (h : g.Acyclic) (hg : g.WellFormed) : WellFounded g.Feeds :=
  wellFounded_of_finite (fun a => g.upstream [a]) (by simp [hg.mem_upstream]) h

theorem Acyclic.wellFounded_swap (h : g.Acyclic) (hg : g.WellFormed) :
    WellFounded (Function.swap g.Feeds) :=
  wellFounded_of_finite (fun a => g.downstream [a])
    (by simp [hg.mem_downstream, Relation.reflTransGen_swap])
    fun a ha => h a (Relation.transGen_swap.1 ha)

theorem acyclic_empty : Graph.empty.Acyclic := by
  intro a hc
  obtain ⟨b, ⟨k, c, hk, -⟩, -⟩ := Relation.TransGen.head'_iff.1 hc
  simp [Graph.empty, connection?] at hk

theorem feeds_joined (h : Feeds (g.joined c) a b) :
    g.Feeds a b ∨ a = c.src.node ∧ b = c.dest.node := by
  obtain ⟨k, d, hd, hs, ht⟩ := h
  rw [connection?_joined] at hd
  split at hd
  · cases hd
    exact .inr ⟨hs.symm, ht.symm⟩
  · exact .inl ⟨k, d, hd, hs, ht⟩

theorem joined_feeds : Feeds (g.joined c) c.src.node c.dest.node :=
  ⟨c.id, c, by simp, rfl, rfl⟩

theorem Feeds.joined (hc : g.connection? c.id = none) (h : g.Feeds a b) :
    Feeds (g.joined c) a b := by
  obtain ⟨k, d, hd, hs, ht⟩ := h
  refine ⟨k, d, ?_, hs, ht⟩
  rw [connection?_joined, if_neg]
  · exact hd
  · rintro rfl
    rw [hc] at hd
    cases hd

/-- A path through a new connection runs to its source and on from its destination. -/
theorem transGen_joined (h : TransGen (g.joined c).Feeds a b) :
    TransGen g.Feeds a b ∨
      ReflTransGen g.Feeds a c.src.node ∧ ReflTransGen g.Feeds c.dest.node b := by
  induction h with
  | single h =>
    rcases feeds_joined h with h | ⟨rfl, rfl⟩
    · exact .inl (.single h)
    · exact .inr ⟨.refl, .refl⟩
  | tail _ h ih =>
    rcases feeds_joined h with h | ⟨rfl, rfl⟩
    · exact ih.imp (·.tail h) fun ⟨hs, ht⟩ => ⟨hs, ht.tail h⟩
    · rcases ih with hp | ⟨hs, -⟩
      · exact .inr ⟨hp.to_reflTransGen, .refl⟩
      · exact .inr ⟨hs, .refl⟩

/-- A connection closes no cycle unless there is a path back from its destination: by
`transGen_joined` a cycle would run through the new connection, and so be such a path. -/
theorem Acyclic.joined (h : g.Acyclic) (hc : ¬ReflTransGen g.Feeds c.dest.node c.src.node) :
    (g.joined c).Acyclic := by
  intro a ha
  rcases transGen_joined ha with hp | ⟨hs, ht⟩
  · exact h a hp
  · exact hc (ht.trans hs)

theorem feeds_of_subset (h : ∀ k c, g'.connection? k = some c → g.connection? k = some c)
    (hf : g'.Feeds a b) : g.Feeds a b := by
  obtain ⟨k, d, hd, hs, ht⟩ := hf
  exact ⟨k, d, h k d hd, hs, ht⟩

/-- Without some of its connections a graph has no new cycle. -/
theorem Acyclic.of_subset (h : g.Acyclic)
    (hsub : ∀ k c, g'.connection? k = some c → g.connection? k = some c) : g'.Acyclic :=
  h.mono fun _ _ => feeds_of_subset hsub

theorem connection?_ofParts {nodes : List Node} {connections : List Connection}
    {k : ConnectionId} (h : (Graph.ofParts nodes connections).connection? k = some c) :
    c ∈ connections := by
  obtain ⟨d, hd, -, rfl⟩ | h := Tables.of_getElem?_foldl_insert Connection.id (fun c => c) _ ∅ h
  · exact (List.mem_filter.1 hd).1
  · simp at h

theorem node?_ofParts {nodes : List Node} {connections : List Connection} {id : NodeId} {n : Node}
    (h : (Graph.ofParts nodes connections).node? id = some n) : n ∈ nodes ∧ n.id = id := by
  obtain ⟨m, hm, rfl, rfl⟩ | h := Tables.of_getElem?_foldl_insert Node.id (fun n => n) nodes ∅ h
  · exact ⟨hm, rfl⟩
  · simp at h

/-- If all connections lead to a higher level, so do all paths. -/
theorem lt_of_transGen_ofParts {nodes : List Node} {connections : List Connection}
    (level : NodeId → Nat) (h : ∀ c ∈ connections, level c.src.node < level c.dest.node)
    (hp : TransGen (Graph.ofParts nodes connections).Feeds a b) : level a < level b := by
  have step {a b : NodeId} (hf : (Graph.ofParts nodes connections).Feeds a b) :
      level a < level b := by
    obtain ⟨k, c, hk, rfl, rfl⟩ := hf
    exact h c (connection?_ofParts hk)
  induction hp with
  | single hf => exact step hf
  | tail _ hf ih => exact Nat.lt_trans ih (step hf)

theorem acyclic_ofParts {nodes : List Node} {connections : List Connection} (level : NodeId → Nat)
    (h : ∀ c ∈ connections, level c.src.node < level c.dest.node) :
    (Graph.ofParts nodes connections).Acyclic :=
  fun _ ha => Nat.lt_irrefl _ (lt_of_transGen_ofParts level h ha)

end Dataflow.Graph
