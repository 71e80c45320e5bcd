import Dataflow.Proofs.Engine.Scopes
import Dataflow.Proofs.Query.Expansion

/-! Combinations of elements.

A scope fits some nodes (`Fits`) if each of them that is bound is `Placed`: it is bound to the
element that it has at its place where those before it are bound. A collector keeps it so as long as
it binds iterators in this order, as far as one feeds the other (`Follows`). -/

namespace Dataflow

open Relation (ReflTransGen TransGen)

theorem Plan.run_elementAt {o : Precedence} {f : (q : Query) → Reading q.Answer} {id : NodeId}
    {n : Node} {S : Scope} {i : Nat} {values : List Value} {sources r s : NodeSet}
    (hn : f (.node id) = some (some n, r))
    (hv : f (.elements n (S.only (o.before · id))) = some ((values, sources), s)) :
    (elementAt o id S i).run f = some (values[i]?.map fun v => ⟨v, i, sources⟩, r ∪ s) :=
  run_ask_some.2 ⟨_, r, s, hn,
    run_ask_some.2 ⟨_, s, ∅, hv, rfl, (Tables.union_empty s).symm⟩, rfl⟩

namespace Engine

variable {o : Precedence} {e : Engine} {S T : Scope} {U V : NodeId → Prop} {c x : NodeId}

/-- The bound iterator has the element that it holds, at its place. -/
def Placed (o : Precedence) (e : Engine) (S : Scope) (x : NodeId) : Prop :=
  ∀ l, S.lookup x = some l → ∃ d, e.plain o d (.bound x S) = some (some l, l.sources)

structure Fits (o : Precedence) (e : Engine) (U : NodeId → Prop) (S : Scope) : Prop where
  context : S.context = .root
  placed : ∀ x, U x → e.Placed o S x

theorem Fits.mono (h : e.Fits o U S) (hV : ∀ x, V x → U x) : e.Fits o V S :=
  ⟨h.context, fun x hx => h.placed x (hV x hx)⟩

theorem fits_root : e.Fits o U (.root .root) := by
  refine ⟨rfl, fun x _ l hl => ?_⟩
  rw [Scope.lookup_root] at hl
  cases hl

theorem Fits.settles_bound (h : e.Fits o U S) (hx : U x) : e.Settles o (.bound x S) := by
  cases hl : S.lookup x with
  | none => exact .intro (plain_unbound (d := 0) (by rw [Scope.place?, hl]; rfl))
  | some l =>
    obtain ⟨d, hd⟩ := h.placed x hx l hl
    exact .intro hd

/-! ## Elements -/

/-- An iterator is read for its elements. -/
theorem mem_reads_elements (hc : e.catalogue.All NodeDefinition.Flowing) {n : Node}
    (hn : e.graph.node? n.id = some n) (hi : e.isIterator n.id) {d : Nat}
    {values : List Value} {sources reads : NodeSet}
    (h : e.plain o d (.elements n S) = some ((values, sources), reads)) :
    sources = reads ∧ n.id ∈ reads := by
  rw [isIterator_eq hn] at hi
  cases d with
  | zero => cases h
  | succ d =>
    rw [plain_elements] at h
    obtain ⟨vs, r, hrun, hr⟩ := Reading.andThen_some.1 h
    obtain ⟨hvs, rfl⟩ := Prod.mk.inj hr
    obtain ⟨rfl, rfl⟩ := Prod.mk.inj hvs
    refine ⟨rfl, ?_⟩
    rw [show (e.definition n).elements n S = _ from (hc n.module n.type).elements hi n S] at hrun
    obtain ⟨v, r, s, hv, hs, rfl⟩ := Reading.bind_some.1 ((Plan.run_bind ..).symm.trans hrun)
    obtain ⟨cs, r, s', hcs, -, rfl⟩ := Reading.bind_some.1 ((Plan.run_bind ..).symm.trans hv)
    rw [Plan.connectionsInto, Plan.run_query] at hcs
    obtain ⟨k, rfl⟩ : ∃ k, d = k + 1 := by
      cases d with
      | zero => cases hcs
      | succ k => exact ⟨k, rfl⟩
    simp only [Std.ExtTreeSet.mem_union_iff]
    exact .inl (.inl (Method.mem_reads hcs))

/-! ## Combinations -/

/-- What a collector has bound when it comes to the end of `entries`: these besides what was bound
before, and all that leads to the collector fits. -/
structure Combination (o : Precedence) (e : Engine) (S : Scope) (c : NodeId) (entries : List NodeId)
    (locals : Locals) : Prop where
  bound : ∀ x, (S.child locals).isBound x ↔ x ∈ entries ∨ S.isBound x
  fits : e.Fits o (TransGen e.graph.Feeds · c) (S.child locals)

theorem Combination.empty (h : e.Fits o (TransGen e.graph.Feeds · c) S) :
    e.Combination o S c [] ∅ := by
  refine ⟨fun x => ?_, ?_⟩
  · simp [Scope.child_empty]
  · rw [Scope.child_empty]
    exact h

section Collect

variable (hg : e.graph.WellFormed) (ha : e.graph.Acyclic)
  (hc : e.catalogue.All NodeDefinition.Flowing)

include hg ha hc

/-- A new iterator has the elements that it had before it was bound. -/
theorem placed_insert_self {n : Node} (hn : e.graph.node? n.id = some n) (hi : e.isIterator n.id)
    {locals : Locals} (hbefore : ∀ x, TransGen e.graph.Feeds x n.id → (S.child locals).isBound x →
      o.before x n.id)
    (hs : e.Settles o (.elements n (S.child locals))) {values : List Value} {sources : NodeSet}
    (hright : e.Right o (.elements n (S.child locals)) (values, sources)) {v : Value} {i : Nat}
    (hv : values[i]? = some v) :
    e.Placed o (S.child (locals.insert n.id ⟨v, i, sources⟩)) n.id := by
  intro l hl
  rw [Scope.lookup_child_insert, if_pos rfl] at hl
  cases hl
  obtain ⟨d, ⟨values', sources'⟩, reads, hd⟩ := hs.exists
  obtain ⟨rfl, rfl⟩ := Prod.mk.inj (hright d _ _ hd)
  obtain ⟨rfl, hmem⟩ := mem_reads_elements hc hn hi hd
  have hagree : (S.child locals).AgreeOn (TransGen e.graph.Feeds · n.id)
      ((S.child (locals.insert n.id ⟨v, i, sources⟩)).only (o.before · n.id)) := by
    refine .trans (.of_only hbefore) (.insert_only ?_ ..)
    exact fun h => absurd h (ha n.id)
  have hsame := sameIn (o := o) hg ha hc (fun _ _ hf hb => .head hf hb) hagree d
  have hd := (hsame.elements n fun _ hf => .single hf).symm.trans hd
  obtain ⟨k, rfl⟩ : ∃ k, d = k + 1 := by
    cases d with
    | zero => cases hd
    | succ k => exact ⟨k, rfl⟩
  have hnode : e.plain o (k + 1) (.node n.id) = some (some n, {n.id}) := by
    rw [← hn]
    rfl
  refine ⟨k + 2, ?_⟩
  rw [plain_bound (by rw [Scope.place?, Scope.lookup_child_insert, if_pos rfl]; rfl),
    Plan.run_elementAt hnode hd, hv]
  have hreads : {n.id} ∪ sources = sources := by
    refine Std.ExtTreeSet.ext_mem fun {id} => ?_
    rw [Std.ExtTreeSet.mem_union_iff, Tables.mem_singleton]
    grind
  rw [hreads]
  rfl

/-- An older one has none of its elements from the new one. -/
theorem Placed.insert {locals : Locals} (h : e.Placed o (S.child locals) x) {id : NodeId}
    (hne : x ≠ id) (hid : TransGen e.graph.Feeds id x → o.before id x = false)
    (l : Local) : e.Placed o (S.child (locals.insert id l)) x := by
  intro m hm
  have hl : (S.child (locals.insert id l)).lookup x = (S.child locals).lookup x :=
    (Scope.lookup_child_insert l).trans (if_neg hne)
  obtain ⟨d, hd⟩ := h m (hl.symm.trans hm)
  cases d with
  | zero => cases hd
  | succ d =>
    have hagree : ((S.child locals).only (o.before · x)).AgreeOn
        (TransGen e.graph.Feeds · x)
        ((S.child (locals.insert id l)).only (o.before · x)) := by
      refine .insert_only ?_ ..
      exact hid
    have hsame := sameIn (o := o) hg ha hc (fun _ _ hf hb => .head hf hb) hagree d
    refine ⟨d + 1, (bound_congr hg ?_ hsame fun _ hf => .single hf).symm.trans hd⟩
    rw [Scope.place?, Scope.place?, hl]

/-- The entry is bound in order after those that are bound before it, as far as one of the two feeds
the other upstream of the collector. -/
def Follows (o : Precedence) (e : Engine) (S : Scope) (c : NodeId) (entries : List NodeId)
    (x : NodeId) : Prop :=
  ∀ i, S.isBound i ∨ i ∈ entries → TransGen e.graph.Feeds i c →
    (TransGen e.graph.Feeds i x → o.before i x) ∧
      (TransGen e.graph.Feeds x i → o.before x i = false)

theorem Combination.insert {entries rest : List NodeId} {n : Node}
    (hn : e.graph.node? n.id = some n) (hentries : e.Entries S c (entries ++ n.id :: rest))
    (hf : e.Follows o S c entries n.id) {locals : Locals} (h : e.Combination o S c entries locals)
    (hs : e.Settles o (.elements n (S.child locals))) {values : List Value} {sources : NodeSet}
    (hright : e.Right o (.elements n (S.child locals)) (values, sources)) {v : Value} {i : Nat}
    (hv : values[i]? = some v) :
    e.Combination o S c (entries ++ [n.id]) (locals.insert n.id ⟨v, i, sources⟩) := by
  obtain ⟨ho, -⟩ := hentries.opened n.id (by simp)
  refine ⟨fun x => ?_, h.fits.context, fun x hx => ?_⟩
  · rw [Scope.isBound_child_insert, h.bound]
    grind
  by_cases he : x = n.id
  · subst he
    refine placed_insert_self hg ha hc hn ho.isIterator (fun y hy hb => ?_) hs hright hv
    exact (hf y ((h.bound y).1 hb).symm (hy.trans (ho.feeds hg))).1 hy
  by_cases hb : (S.child locals).isBound x
  · exact (h.fits.placed x hx).insert hg ha hc he (hf x ((h.bound x).1 hb).symm hx).2 _
  · intro l hl
    rw [Scope.lookup_child_insert, if_neg he] at hl
    rw [Scope.isBound_eq_isSome, hl] at hb
    exact absurd rfl hb

variable {P : Query → Prop} (hP : ∀ q, P q → e.Settles o q)

include hP

/-- An entry is bound to each of the elements that it has in each combination so far. By
`Combination.insert`: it is placed itself (`placed_insert_self`), and those before it stay so
(`Placed.insert`). -/
theorem binds_entry {entries rest : List NodeId} {n : Node} (hn : e.graph.node? n.id = some n)
    (hentries : e.Entries S c (entries ++ n.id :: rest)) (hf : e.Follows o S c entries n.id)
    (hask : ∀ l, e.Combination o S c entries l → P (.elements n (S.child l))) :
    Plan.Binds P (e.Right o) S n (e.Combination o S c entries)
      (e.Combination o S c (entries ++ [n.id])) where
  ask := hask
  bind hl hvs hv := hl.insert hg ha hc hn hentries hf (hP _ (hask _ hl)) hvs hv

theorem combinations_ends (hnode : ∀ id, P (.node id)) (limit : Nat) {entries rest : List NodeId}
    (hentries : e.Entries S c (entries ++ rest))
    (hf : ∀ pre x post, rest = pre ++ x :: post → e.Follows o S c (entries ++ pre) x)
    (hask : ∀ pre n post, rest = pre ++ n.id :: post → ∀ l, e.Combination o S c (entries ++ pre) l →
      P (.elements n (S.child l))) {locals : List Locals}
    (hlocals : ∀ l ∈ locals, e.Combination o S c entries l) :
    (Plan.combinations limit S rest locals).Ends P (e.Right o) fun found =>
      ∀ ls, found = some ls → ∀ l ∈ ls, e.Combination o S c (entries ++ rest) l := by
  induction rest generalizing entries locals with
  | nil =>
    refine .pure ?_
    rintro _ ⟨⟩ l hl
    rw [List.append_nil]
    exact hlocals l hl
  | cons x rest ih =>
    obtain ⟨ho, -⟩ := hentries.opened x (by simp)
    rw [Plan.combinations]
    refine .bind (.query (hnode x)) fun n hn => ?_
    cases n with
    | none =>
      obtain ⟨n, hx⟩ := node_of_isIterator ho.isIterator
      rw [← right_node hn] at hx
      cases hx
    | some n =>
      have hn := (right_node hn).symm
      obtain rfl := hg.node_id hn
      have first : e.Follows o S c entries n.id := by simpa using hf [] n.id rest rfl
      have ask (l : Locals) (hl : e.Combination o S c entries l) : P (.elements n (S.child l)) :=
        hask [] n rest rfl l (by rwa [List.append_nil])
      refine .bind (Plan.extend_ends (binds_entry hg ha hc hP hn hentries first ask) limit (by simp)
        hlocals) fun found hfound => ?_
      cases found with
      | none => exact .pure fun _ h => by cases h
      | some next =>
        rw [List.append_cons]
        refine ih (by rwa [← List.append_cons]) (fun pre y post he => ?_)
          (fun pre m post he l hl => ?_) (hfound next rfl)
        · rw [← List.append_cons]
          exact hf (n.id :: pre) y post (by rw [he]; rfl)
        · rw [← List.append_cons] at hl
          exact hask (n.id :: pre) m post (by rw [he]; rfl) l hl

end Collect

end Engine

end Dataflow
