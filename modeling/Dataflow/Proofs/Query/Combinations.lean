import Dataflow.Proofs.Query.Gets
import Dataflow.Proofs.Query.Product
import Dataflow.Query.Expansion

/-! The combinations that a collector comes to are the product of what its iterators run over,
unless there are too many of them (`eval_expand_eq_none`, `eq_picks_of_eval_expand`).

No two of them are alike, so that nothing is asked twice (`expand_fresh`). -/

namespace Dataflow

namespace Plan

variable {answer : (q : Query) → q.Answer} {S : Scope} {n : Node} {ns : List Node}
  {ls next : List Locals} {limit count : Nat}

/-- The elements that the answers give. -/
def elementsOf (answer : (q : Query) → q.Answer) : Elements := fun n f => answer (.elements n f)

theorem bindEach_eq (l : Locals) :
    bindEach n.id l (answer (.elements n (S.child l))).1 (answer (.elements n (S.child l))).2 =
      ((elementsOf answer).choices S n l).map Prod.snd := by
  rw [bindEach, Elements.choices, List.map_map]
  rfl

/-- All combinations are extended, unless there come to be more of them than `limit`. -/
theorem eval_extend (hcount : count ≤ limit) :
    (extend limit S n count next ls).eval answer =
      if limit < count + ((elementsOf answer).spread S ls [n]).length then none
      else some (next.reverse ++ (elementsOf answer).spread S ls [n]) := by
  induction ls generalizing count next with
  | nil => simp [extend, Elements.spread_singleton, Nat.not_lt.2 hcount]
  | cons l ls ih =>
    have hlength : ((elementsOf answer).spread S (l :: ls) [n]).length =
        (answer (.elements n (S.child l))).1.length +
          ((elementsOf answer).spread S ls [n]).length := by
      simp [Elements.spread_singleton, Elements.choices, elementsOf]
    have hspread : (elementsOf answer).spread S (l :: ls) [n] =
        bindEach n.id l (answer (.elements n (S.child l))).1 (answer (.elements n (S.child l))).2 ++
          (elementsOf answer).spread S ls [n] := by
      rw [bindEach_eq, Elements.spread_singleton, Elements.spread_singleton, List.flatMap_cons]
    rw [extend, eval_bind, eval_query]
    dsimp only
    rw [hlength, ← Nat.add_assoc]
    split
    next h => rw [if_pos (Nat.lt_of_lt_of_le h (Nat.le_add_right ..)), eval_pure]
    next h =>
      rw [ih (Nat.le_of_not_lt h), hspread, List.reverseAux_eq, List.reverse_append,
        List.reverse_reverse, List.append_assoc]

theorem eval_combinations_cons (hn : answer (.node n.id) = some n) :
    (combinations limit S (n.id :: ns.map Node.id) ls).eval answer =
      if limit < ((elementsOf answer).spread S ls [n]).length then none
      else (combinations limit S (ns.map Node.id) ((elementsOf answer).spread S ls [n])).eval
        answer := by
  rw [combinations, eval_bind, eval_node?, hn]
  dsimp only
  rw [eval_bind, eval_extend (Nat.zero_le limit), Nat.zero_add]
  by_cases h : limit < ((elementsOf answer).spread S ls [n]).length
  · rw [if_pos h, if_pos h, eval_pure]
  · rw [if_neg h, if_neg h, List.reverse_nil, List.nil_append]

/-- It comes to nothing when those of the first iterators are too many already. -/
theorem eval_combinations_eq_none (hnodes : ∀ n ∈ ns, answer (.node n.id) = some n) :
    (combinations limit S (ns.map Node.id) ls).eval answer = none ↔
      ∃ j < ns.length, limit < ((elementsOf answer).spread S ls (ns.take (j + 1))).length := by
  induction ns generalizing ls with
  | nil => simp [combinations]
  | cons n ns ih =>
    rw [List.map_cons, eval_combinations_cons (hnodes n List.mem_cons_self)]
    split
    next h => exact iff_of_true rfl ⟨0, Nat.succ_pos _, h⟩
    next h =>
      rw [ih fun m hm => hnodes m (List.mem_cons_of_mem _ hm)]
      constructor
      · rintro ⟨j, hj, hlimit⟩
        refine ⟨j + 1, Nat.succ_lt_succ hj, ?_⟩
        rwa [List.take_succ_cons, Elements.spread_cons]
      · rintro ⟨_ | j, hj, hlimit⟩
        · exact absurd hlimit h
        · rw [List.take_succ_cons, Elements.spread_cons] at hlimit
          exact ⟨j, Nat.lt_of_succ_lt_succ hj, hlimit⟩

/-- Otherwise all combinations are found. -/
theorem eq_spread_of_eval_combinations (hnodes : ∀ n ∈ ns, answer (.node n.id) = some n)
    (h : (combinations limit S (ns.map Node.id) ls).eval answer = some next) :
    next = (elementsOf answer).spread S ls ns := by
  induction ns generalizing ls with
  | nil =>
    rw [Elements.spread_nil]
    exact (Option.some.inj h).symm
  | cons n ns ih =>
    rw [List.map_cons, eval_combinations_cons (hnodes n List.mem_cons_self)] at h
    split at h
    next => cases h
    next =>
      rw [Elements.spread_cons]
      exact ih (fun m hm => hnodes m (List.mem_cons_of_mem _ hm)) h

theorem eval_expand_eq_none (hnodes : ∀ n ∈ ns, answer (.node n.id) = some n) :
    (expand (ns.map Node.id) S).eval answer = none ↔ ∃ j < ns.length,
      answer .limit < ((elementsOf answer).picks S ∅ (ns.take (j + 1))).length := by
  simp only [← Elements.length_spread, ← eval_combinations_eq_none hnodes]
  rw [expand, eval_bind, eval_query, eval_bind, eval_pure, Option.map_eq_none_iff]

theorem eq_picks_of_eval_expand (hnodes : ∀ n ∈ ns, answer (.node n.id) = some n)
    {scopes : List Scope} (h : (expand (ns.map Node.id) S).eval answer = some scopes) :
    scopes = ((elementsOf answer).picks S ∅ ns).map fun p => S.child p.2 := by
  rw [expand, eval_bind, eval_query, eval_bind, eval_pure, Option.map_eq_some_iff] at h
  obtain ⟨ls, hls, rfl⟩ := h
  rw [eq_spread_of_eval_combinations hnodes hls, Elements.spread, List.flatMap_singleton,
    List.map_map]
  rfl

end Plan

/-! ## Nothing is asked twice

The combinations differ from each other, so that each question about elements is another one. -/

/-- The question is about one of some iterators, or about its elements. -/
def Query.Concerns (entries : List NodeId) : Query → Prop
  | .node x => x ∈ entries
  | .elements n _ => n.id ∈ entries
  | _ => False

theorem Query.Concerns.cons {q : Query} {entries : List NodeId} (h : q.Concerns entries)
    (x : NodeId) : q.Concerns (x :: entries) := by
  cases q with
  | node | elements => exact List.mem_cons_of_mem x h
  | _ => exact h.elim

namespace Plan

variable {S : Scope} {n : Node} {ls next : List Locals} {limit count : Nat}

/-- Two combinations make a difference besides what is still to be bound, so that they do not become
alike by binding the rest of `entries`. -/
def Apart (S : Scope) (entries : List NodeId) (l l' : Locals) : Prop :=
  ∃ x, x ∉ entries ∧ (S.child l).lookup x ≠ (S.child l').lookup x

namespace Apart

variable {entries : List NodeId} {l l' : Locals} {x : NodeId}

theorem symm (h : Apart S entries l l') : Apart S entries l' l :=
  h.imp fun _ h => ⟨h.1, h.2.symm⟩

theorem child_ne (h : Apart S entries l l') : S.child l ≠ S.child l' := by
  obtain ⟨x, -, hx⟩ := h
  exact fun he => hx (congrArg (Scope.lookup · x) he)

theorem tail (h : Apart S (x :: entries) l l') : Apart S entries l l' :=
  h.imp fun _ h => ⟨fun hx => h.1 (List.mem_cons_of_mem _ hx), h.2⟩

theorem insert (h : Apart S (x :: entries) l l') (v : Local) :
    Apart S (x :: entries) (l.insert x v) l' := by
  obtain ⟨y, hy, hne⟩ := h
  refine ⟨y, hy, ?_⟩
  rwa [Scope.lookup_child_insert, if_neg (List.ne_of_not_mem_cons hy)]

/-- An iterator that is bound to different places makes a difference. -/
theorem of_index {v v' : Local} (hx : x ∉ entries) (h : v.index ≠ v'.index) :
    Apart S entries (l.insert x v) (l'.insert x v') := by
  refine ⟨x, hx, ?_⟩
  rw [Scope.lookup_child_insert, Scope.lookup_child_insert, if_pos rfl, if_pos rfl]
  exact fun he => h (congrArg Local.index (Option.some.inj he))

theorem bindEach {x : NodeId} (hx : x ∉ entries) (l : Locals) (values : List Value)
    (sources : NodeSet) : (bindEach x l values sources).Pairwise (Apart S entries) := by
  have hplaces : values.zipIdx.Pairwise fun p q => p.2 < q.2 := by
    rw [← List.pairwise_map, List.zipIdx_map_snd]
    exact List.pairwise_lt_range'
  exact List.pairwise_map.2 (hplaces.imp fun h => of_index hx (Nat.ne_of_lt h))

end Apart

section Fresh

variable {right : (q : Query) → q.Answer → Prop} {asked : Query → Prop} {entries : List NodeId}

theorem extend_apart (hn : n.id ∉ entries) (hls : ls.Pairwise (Apart S (n.id :: entries)))
    (hnext : next.Pairwise (Apart S entries))
    (hcross : ∀ m ∈ next, ∀ l ∈ ls, Apart S (n.id :: entries) m l) :
    (extend limit S n count next ls).Ends (fun q => ∃ l ∈ ls, q = .elements n (S.child l)) right
      fun found => ∀ ls', found = some ls' → ls'.Pairwise (Apart S entries) := by
  induction ls generalizing count next with
  | nil =>
    refine .pure ?_
    rintro _ ⟨⟩
    exact List.pairwise_reverse.2 (hnext.imp Apart.symm)
  | cons l ls ih =>
    rw [List.pairwise_cons] at hls
    rw [extend]
    refine .bind (.query ⟨l, List.mem_cons_self, rfl⟩) fun vs _ => ?_
    obtain ⟨values, sources⟩ := vs
    dsimp only
    split
    · exact .pure fun _ h => by cases h
    have hhere (m : Locals) (hm : m ∈ (bindEach n.id l values sources).reverse) (l' : Locals)
        (hl' : Apart S (n.id :: entries) l l') : Apart S (n.id :: entries) m l' := by
      obtain ⟨⟨v, i⟩, -, rfl⟩ := List.mem_map.1 (List.mem_reverse.1 hm)
      exact hl'.insert _
    rw [List.reverseAux_eq]
    refine (ih hls.2 ?_ ?_).weaken fun q ⟨l', hl', hq⟩ => ⟨l', List.mem_cons_of_mem _ hl', hq⟩
    · refine List.pairwise_append.2
        ⟨List.pairwise_reverse.2 ((Apart.bindEach hn ..).imp Apart.symm), hnext,
          fun m hm m' hm' => (hhere m hm m' ?_).tail⟩
      exact (hcross m' hm' l List.mem_cons_self).symm
    · intro m hm l' hl'
      rcases List.mem_append.1 hm with hm | hm
      · exact hhere m hm l' (hls.1 l' hl')
      · exact hcross m hm l' (List.mem_cons_of_mem _ hl')

theorem extend_fresh (hls : ls.Pairwise fun l l' => S.child l ≠ S.child l')
    (hasked : ∀ l ∈ ls, ¬asked (.elements n (S.child l))) :
    (extend limit S n count next ls).Fresh right asked := by
  induction ls generalizing count next asked with
  | nil => trivial
  | cons l ls ih =>
    rw [List.pairwise_cons] at hls
    rw [extend]
    refine .query (hasked l List.mem_cons_self) fun vs _ => ?_
    dsimp only
    split
    · trivial
    refine ih hls.2 fun l' hl' => ?_
    rintro (ha | he)
    · exact hasked l' (List.mem_cons_of_mem _ hl') ha
    · exact hls.1 l' hl' (Query.elements.inj he).2.symm

theorem combinations_fresh (hright : ∀ x ∈ entries, ∀ n, right (.node x) (some n) → n.id = x)
    (hentries : entries.Nodup) (hls : ls.Pairwise (Apart S entries))
    (hasked : ∀ q, asked q → ¬q.Concerns entries) :
    (combinations limit S entries ls).Fresh right asked := by
  induction entries generalizing ls asked with
  | nil => trivial
  | cons x entries ih =>
    have hright' (y : NodeId) (hy : y ∈ entries) := hright y (List.mem_cons_of_mem _ hy)
    rw [List.nodup_cons] at hentries
    have hleft (q : Query) (h : asked q ∨ q = .node x) : ¬q.Concerns entries := by
      rcases h with h | rfl
      · exact fun hq => hasked q h (hq.cons x)
      · exact hentries.1
    rw [combinations]
    refine .query (fun h => hasked _ h List.mem_cons_self) fun n hn => ?_
    cases n with
    | none => exact ih hright' hentries.2 (hls.imp Apart.tail) hleft
    | some n =>
      obtain rfl := hright x List.mem_cons_self n hn
      refine .bind (extend_fresh (hls.imp Apart.child_ne) ?_)
        (extend_apart hentries.1 hls .nil (by simp)) fun found hfound => ?_
      · rintro l - (h | h)
        · exact hasked _ h List.mem_cons_self
        · cases h
      cases found with
      | none => trivial
      | some next =>
        refine ih hright' hentries.2 (hfound next rfl) ?_
        rintro q (h | ⟨l, -, rfl⟩)
        · exact hleft q h
        · exact hentries.1

theorem expand_fresh (hright : ∀ x ∈ entries, ∀ n, right (.node x) (some n) → n.id = x)
    (hentries : entries.Nodup) : (expand entries S).Fresh right fun _ => False := by
  refine .query id fun limit _ => .bind (combinations_fresh hright hentries
    (List.pairwise_singleton ..) ?_) (Within.all (fun _ => trivial) _) fun found _ => trivial
  rintro q (h | rfl)
  · exact h.elim
  · exact id

end Fresh

end Plan

end Dataflow
