import Dataflow.Proofs.Engine.Values

/-! A graph in which every iterator is bound after all that feeds it (`Untangled`), whatever the
search of a collector comes upon first. The order is then `Precedence.last`. -/

namespace Dataflow.Engine

open Relation (ReflTransGen TransGen)

variable {e : Engine} {r a c x : NodeId} {bound entries pre post : List NodeId}

/-- Above `r`, if a collector iterates over something that feeds an iterator upstream of it, this
iterator is fed without a collector in between. -/
def Untangled (e : Engine) (r : NodeId) : Prop :=
  ∀ ⦃c x i⦄, ReflTransGen e.graph.Feeds c r → e.isCollector c → e.Open x c → e.isIterator i →
    TransGen e.graph.Feeds i c → TransGen e.graph.Feeds x i → e.Open x i

/-- Iterators on one level do not feed one another. -/
theorem untangled_of_level {level : NodeId → Nat} {k : Nat}
    (hup : ∀ {a b}, TransGen e.graph.Feeds a b → level a < level b)
    (hk : ∀ x, e.isIterator x → level x = k) : e.Untangled r := by
  intro c x i _ _ ho hi _ hxi
  have hlt := hup hxi
  rw [hk x ho.isIterator, hk i hi] at hlt
  exact absurd hlt (Nat.lt_irrefl k)

/-- Iterators are bound after all that is open at them. -/
structure Bound (e : Engine) (r a : NodeId) (bound : List NodeId) : Prop where
  upstream : ReflTransGen e.graph.Feeds a r
  iterates : ∀ i ∈ bound, e.isIterator i
  closed : ∀ i ∈ bound, ∀ y, e.Open y i → y ∈ bound

section Acyclic

variable {o : Precedence} (hg : e.graph.WellFormed) (ha : e.graph.Acyclic)
  (hc : e.catalogue.All NodeDefinition.Flowing)

include hg ha hc

theorem entries_of_gathers (h : e.Gathers o c bound entries) :
    ∃ S, (∀ x, S.isBound x ↔ x ∈ bound) ∧ e.Entries S c entries := by
  obtain ⟨S, d, reads, hS, hrun⟩ := h
  exact ⟨S, hS, of_run (openEntries_ends (P := fun _ => True) hg ha hc (fun _ => trivial)
    (fun _ _ => trivial) fun _ _ _ _ => trivial) hrun⟩

/-- It stays so with the first entries that a collector binds. -/
theorem Bound.append (h : e.Bound r c bound) (hgathers : e.Gathers o c bound (pre ++ post))
    (hup : ReflTransGen e.graph.Feeds a c) : e.Bound r a (bound ++ pre) := by
  obtain ⟨S, hS, hentries⟩ := entries_of_gathers hg ha hc hgathers
  refine ⟨hup.trans h.upstream, fun i hi => ?_, fun i hi y hy => ?_⟩
  · rcases List.mem_append.1 hi with hi | hi
    · exact h.iterates i hi
    · exact (hentries.opened i (List.mem_append_left _ hi)).1.isIterator
  · rcases List.mem_append.1 hi with hi | hi
    · exact List.mem_append_left _ (h.closed i hi y hy)
    · obtain ⟨front, back, rfl⟩ := List.append_of_mem hi
      have := hentries.ordered front i (back ++ post) (by simp) y hy
      rw [hS] at this
      grind

theorem Asked.isBound (h : e.Asked o r a bound) : e.Bound r a bound := by
  induction h with
  | root => exact ⟨.refl, by simp, by simp⟩
  | input _ _ _ hf ih => exact ⟨.head hf ih.upstream, ih.iterates, ih.closed⟩
  | @gathered a c bound entries _ _ hgathers hf ih =>
    rw [← List.append_nil entries] at hgathers
    exact ih.append hg ha hc hgathers (.single hf)
  | @elements a c x bound pre post _ _ hgathers hf ih =>
    obtain ⟨S, -, hentries⟩ := entries_of_gathers hg ha hc hgathers
    have hx := (hentries.opened x (by simp)).1.feeds hg
    exact ih.append hg ha hc hgathers (.head hf hx.to_reflTransGen)

theorem Untangled.inOrder (hu : e.Untangled r) (hlast : ∀ x i, o.before x i) :
    e.InOrder o r := by
  intro c x bound pre post hasked hcoll hgathers i hi hic
  refine ⟨fun _ => hlast i x, fun hxi => ?_⟩
  have hbound := hasked.isBound hg ha hc
  obtain ⟨S, hS, hentries⟩ := entries_of_gathers hg ha hc hgathers
  obtain ⟨ho, hSx⟩ := hentries.opened x (by simp)
  have hpre := hbound.append hg ha hc hgathers .refl
  -- what feeds it would have been bound before
  have hx := hpre.closed i hi x (hu hbound.upstream hcoll ho (hpre.iterates i hi) hic hxi)
  rcases List.mem_append.1 hx with hx | hx
  · rw [← hS, hSx] at hx
    cases hx
  · have := (List.nodup_append.1 hentries.nodup).2.2
    grind

end Acyclic

end Dataflow.Engine
