import Dataflow.Proofs.Engine.Reply
import Dataflow.Proofs.Session.Reporting
import Dataflow.Proofs.Session.Values

/-! Whatever a session has gone through and whatever modules it has, a collector comes upon exactly
the iterators that lead to it.

A search asks about the graph alone (`Query.AboutSearch`), and what is remembered of the graph is
right. So by `Reached.openEntries_found` it goes as on an empty table. -/

namespace Dataflow

open Relation (TransGen)
open Memo (Table Key)

/-! ## Questions of a search -/

/-- Only the graph is asked about, and where a search goes on. -/
def Query.AboutSearch (q : Query) : Prop :=
  q.AboutStore ∨ ∃ id S seen found, q = .visit id S seen found

/-- Where a search goes on is not remembered. -/
theorem Query.AboutSearch.aboutStore {q : Query} (h : q.AboutSearch) {k : Key}
    (hk : q.key? = some k) : q.AboutStore := by
  rcases h with h | ⟨id, S, seen, found, rfl⟩
  · exact h
  · cases hk

namespace Engine

variable {o : Precedence} {e : Engine} {t : Table}

theorem searchDomain : e.Domain o Query.AboutSearch Query.AboutSearch where
  counted hq := hq
  closed hq := by
    rcases hq with hq | ⟨id, S, seen, found, rfl⟩
    · exact (method_within_store hq).weaken fun _ => .inl
    · exact visitPlan_within (fun _ => .inl trivial) (fun _ _ => .inl trivial)
        (fun id seen found => .inr ⟨id, S, seen, found, rfl⟩) ..
  placed hq := by
    rcases hq with hq | ⟨id, S, seen, found, rfl⟩
    · exact storeDomain.placed hq
    · exact .inl rfl
  keyed hq hq' hk hk' :=
    storeDomain.keyed (hq.aboutStore (e.method_key? hk)) (hq'.aboutStore (e.method_key? hk')) hk hk'

theorem Sound.search (h : e.Sound o Query.AboutStore t) : e.Sound o Query.AboutSearch t :=
  fun k en hen q hq hk => h k en hen q (hq.aboutStore (e.method_key? hk)) hk

end Engine

/-! ## What is found -/

namespace Session

variable {s : Session}

theorem Reached.openEntries_found (h : s.Reached) (c : NodeId) (S : Scope) :
    s.engine.Found S c (Session.perform (Plan.openEntries c S) s).1 := by
  change s.engine.Found S c (s.engine.perform (Plan.openEntries c S) s.table).1
  exact Engine.searchDomain.perform_of_ends (o := .last) (Engine.openEntries_found h.wellFormed
    (fun _ => .inl trivial) (fun _ _ => .inl trivial)
    fun id seen found _ => .inr ⟨id, S, seen, found, rfl⟩) h.sound_store.search

/-- A collector comes upon the other iterators that are not bound yet and lead to it past no
collector, which is along `Engine.Relays`, each once. In a graph without a cycle each one comes
after those that lead to it. This is `Engine.Found`, which by `Reached.openEntries_found` holds in
every session. -/
theorem openEntries_exact (h : s.Reached) (c : NodeId) (S : Scope) :
    let found := (perform (Plan.openEntries c S) s).1
    found.Nodup ∧
    (∀ x, x ∈ found ↔ x ≠ c ∧ s.engine.isIterator x ∧ s.engine.isCollector x = false ∧
      S.isBound x = false ∧ TransGen s.engine.Relays x c) ∧
    (s.graph.Acyclic → ∀ pre x post, found = pre ++ x :: post →
      ∀ y ∈ found, TransGen s.engine.Relays y x → y ∈ pre) := by
  have hfound := h.openEntries_found c S
  refine ⟨hfound.nodup, fun x => ?_, fun ha pre x post hsplit y hy hyx => ?_⟩
  · rw [hfound.mem]
    constructor
    · rintro ⟨hne, hx, hpath⟩
      exact ⟨hne, hx.isIterator, hx.not_collector, hx.unbound, hpath⟩
    · rintro ⟨hne, hi, hcoll, hb, hpath⟩
      exact ⟨hne, ⟨hi, hcoll, hb⟩, hpath⟩
  · exact hfound.ordered ha pre x post hsplit y ((hfound.mem y).1 hy).2.1 hyx

/-- The iterator 3 lies on a cycle, through the collector 4. It leads to the collector 5 as well,
past an array. -/
theorem openEntries_exact_noose :
    (load noose (start .default .builtin)).2.Reached ∧
      ⟨3⟩ ∈ (perform (Plan.openEntries ⟨5⟩ (.root .root))
        (load noose (start .default .builtin)).2).1 := by
  have h : (load noose (start .default .builtin)).2.Reached := .load _ (.start _ _)
  have array : (load noose (start .default .builtin)).2.engine.Relays ⟨2⟩ ⟨5⟩ := by decide +kernel
  have iterator : (load noose (start .default .builtin)).2.engine.Relays ⟨3⟩ ⟨2⟩ := by
    decide +kernel
  refine ⟨h, ((openEntries_exact h ⟨5⟩ (.root .root)).2.1 ⟨3⟩).2 ⟨by decide, ?_, iterator.1, ?_,
    .tail (.single iterator) array⟩⟩
  · decide +kernel
  · decide +kernel

end Session

end Dataflow
