import Mathlib.Data.Set.Card
import Dataflow.Graph.Node
import Dataflow.Proofs.Scope

/-! The product of what some iterators run over.

In another frame an iterator may run over other elements, where the frame of an iterator is the
scope in which those before it are bound; so the product is taken one iterator after the other
(`picks`). Its members are told by the places of their elements, one for each iterator, which make
up a `Row`; and their order is that of the rows (`picks_sorted`). -/

namespace Dataflow

/-- What an iterator runs over in a frame, and the nodes that are read for it. -/
abbrev Elements := Node → Scope → List Value × NodeSet

namespace Elements

variable (elements : Elements) (S : Scope)

/-- Binds an iterator to the element at a place, if there is one. -/
def bindOne (n : Node) (l : Locals) (i : Nat) : Option Locals :=
  (elements n (S.child l)).1[i]?.map fun v => l.insert n.id ⟨v, i, (elements n (S.child l)).2⟩

/-- Binds iterators to their elements at some places, each in the frame of those before it. There
are such elements exactly if the places are a `Row`. -/
def bindAt : Locals → List Node → List Nat → Option Locals
  | l, [], [] => some l
  | l, n :: ns, i :: is => (elements.bindOne S n l i).bind fun l => bindAt l ns is
  | _, _, _ => none

/-- The ways to bind an iterator, in the order of the places. -/
def choices (n : Node) (l : Locals) : List (Nat × Locals) :=
  (elements n (S.child l)).1.zipIdx.map fun (v, i) =>
    (i, l.insert n.id ⟨v, i, (elements n (S.child l)).2⟩)

/-- The ways to bind some iterators, in the order of the places. -/
def picks : Locals → List Node → List (List Nat × Locals)
  | l, [] => [([], l)]
  | l, n :: ns => (elements.choices S n l).flatMap fun (i, l) =>
    (picks l ns).map fun (is, l) => (i :: is, l)

/-- All that comes of binding some iterators. -/
def spread (ls : List Locals) (ns : List Node) : List Locals :=
  ls.flatMap fun l => (elements.picks S l ns).map Prod.snd

variable {elements S} {l m : Locals} {ls : List Locals} {n : Node} {ns : List Node} {i : Nat}
  {is : List Nat} {x : NodeId}

/-! ## Places -/

theorem mem_choices : (i, m) ∈ elements.choices S n l ↔ elements.bindOne S n l i = some m := by
  simp only [choices, bindOne, List.mem_map, Prod.exists, List.mem_zipIdx_iff_getElem?,
    Prod.mk.injEq, Option.map_eq_some_iff]
  grind

theorem mem_picks : (is, m) ∈ elements.picks S l ns ↔ elements.bindAt S l ns is = some m := by
  induction ns generalizing l is with
  | nil => cases is <;> simp [picks, bindAt, eq_comm]
  | cons n ns ih =>
    cases is with
    | nil => simp [picks, bindAt]
    | cons i is =>
      simp only [picks, List.mem_flatMap, List.mem_map, Prod.exists, Prod.mk.injEq, bindAt,
        mem_choices, Option.bind_eq_some_iff, List.cons.injEq]
      grind

theorem map_fst_choices :
    (elements.choices S n l).map Prod.fst = List.range (elements n (S.child l)).1.length := by
  rw [List.range_eq_range', ← List.zipIdx_map_snd, choices, List.map_map]
  rfl

theorem choices_sorted :
    (elements.choices S n l).Pairwise fun c d => c.1 < d.1 := by
  rw [← List.pairwise_map, map_fst_choices]
  exact List.pairwise_lt_range

/-- The places are in strict lexicographic order. -/
theorem picks_sorted : (elements.picks S l ns).Pairwise fun p q => p.1 < q.1 := by
  induction ns generalizing l with
  | nil => exact List.pairwise_singleton ..
  | cons n ns ih =>
    rw [picks, List.pairwise_flatMap]
    constructor
    · rintro ⟨i, m⟩ -
      exact List.pairwise_map.2 (ih.imp fun h => List.cons_lt_cons_iff.2 (.inr ⟨rfl, h⟩))
    · refine choices_sorted.imp fun h p hp q hq => ?_
      obtain ⟨_, -, rfl⟩ := List.mem_map.1 hp
      obtain ⟨_, -, rfl⟩ := List.mem_map.1 hq
      exact List.cons_lt_cons_iff.2 (.inl h)

/-- A row of places, one for each iterator: in the frame of those before it the iterator has an
element there. -/
structure Row (elements : Elements) (S : Scope) (l : Locals) (ns : List Node) (is : List Nat) :
    Prop where
  length : is.length = ns.length
  place : ∀ t n i, ns[t]? = some n → is[t]? = some i → ∃ f,
    elements.bindAt S l (ns.take t) (is.take t) = some f ∧ i < (elements n (S.child f)).1.length

theorem row_cons : elements.Row S l (n :: ns) (i :: is) ↔
    ∃ m, elements.bindOne S n l i = some m ∧ elements.Row S m ns is := by
  constructor
  · rintro ⟨hlength, hplace⟩
    obtain ⟨_, ⟨⟩, hi⟩ := hplace 0 n i rfl rfl
    refine ⟨_, by rw [bindOne, List.getElem?_eq_getElem hi, Option.map_some], ?_, ?_⟩
    · exact Nat.succ.inj hlength
    · intro t n' i' hn hi'
      obtain ⟨f, hf, hi'⟩ := hplace (t + 1) n' i' hn hi'
      rw [List.take_succ_cons, List.take_succ_cons, bindAt, bindOne,
        List.getElem?_eq_getElem hi] at hf
      exact ⟨f, hf, hi'⟩
  · rintro ⟨m, hm, hlength, hplace⟩
    refine ⟨congrArg Nat.succ hlength, fun t n' i' hn hi' => ?_⟩
    cases t with
    | zero =>
      obtain rfl : n = n' := by simpa using hn
      obtain rfl : i = i' := by simpa using hi'
      obtain ⟨v, hv, -⟩ := Option.map_eq_some_iff.1 hm
      exact ⟨l, rfl, (List.getElem?_eq_some_iff.1 hv).1⟩
    | succ t =>
      obtain ⟨f, hf, hi'⟩ := hplace t n' i' hn hi'
      refine ⟨f, ?_, hi'⟩
      rw [List.take_succ_cons, List.take_succ_cons, bindAt, hm]
      exact hf

theorem row_iff_exists : elements.Row S l ns is ↔ ∃ m, elements.bindAt S l ns is = some m := by
  induction ns generalizing l is with
  | nil =>
    cases is with
    | nil => exact iff_of_true ⟨rfl, by simp⟩ ⟨l, rfl⟩
    | cons => exact iff_of_false (fun h => nomatch h.length) (by simp [bindAt])
  | cons n ns ih =>
    cases is with
    | nil => exact iff_of_false (fun h => nomatch h.length) (by simp [bindAt])
    | cons i is =>
      simp only [row_cons, ih, bindAt, Option.bind_eq_some_iff]
      grind

theorem mem_map_fst_picks : is ∈ (elements.picks S l ns).map Prod.fst ↔ elements.Row S l ns is := by
  simp only [row_iff_exists, ← mem_picks, List.mem_map, Prod.exists, exists_and_right,
    exists_eq_right]

/-- There are as many ways to bind some iterators as there are rows of places for them. -/
theorem encard_row (l : Locals) (ns : List Node) :
    {is | elements.Row S l ns is}.encard = (elements.picks S l ns).length := by
  have hnodup : ((elements.picks S l ns).map Prod.fst).Nodup :=
    List.pairwise_map.2 (picks_sorted.imp fun h => ne_of_lt h)
  have hset : {is | elements.Row S l ns is} =
      (((elements.picks S l ns).map Prod.fst).toFinset : Set (List Nat)) := by
    ext is
    rw [List.coe_toFinset, Set.mem_ofPred_eq, Set.mem_ofPred_eq, mem_map_fst_picks]
  rw [hset, Set.encard_coe_eq_coe_finsetCard, List.toFinset_card_of_nodup hnodup, List.length_map]

/-! ## Elements -/

theorem getElem?_of_bindAt (h : elements.bindAt S l ns is = some m) (hx : x ∉ ns.map Node.id) :
    m[x]? = l[x]? := by
  induction ns generalizing l is with
  | nil =>
    cases is with
    | nil => rw [bindAt, Option.some.injEq] at h; rw [h]
    | cons => cases h
  | cons n ns ih =>
    cases is with
    | nil => cases h
    | cons i is =>
      obtain ⟨l', hl', h⟩ := Option.bind_eq_some_iff.1 h
      obtain ⟨v, -, rfl⟩ := Option.map_eq_some_iff.1 hl'
      rw [List.map_cons, List.mem_cons, not_or] at hx
      rw [ih h hx.2, Tables.getElem?_insert, if_neg hx.1]

/-- Each iterator is bound to the element at its place among those that it runs over in the frame of
the ones before it. -/
theorem getElem?_of_bindAt_of_nodup (h : elements.bindAt S l ns is = some m)
    (hnodup : (ns.map Node.id).Nodup) {t : Nat} (hn : ns[t]? = some n) :
    ∃ f i v, elements.bindAt S l (ns.take t) (is.take t) = some f ∧ is[t]? = some i ∧
      (elements n (S.child f)).1[i]? = some v ∧
      m[n.id]? = some ⟨v, i, (elements n (S.child f)).2⟩ := by
  induction ns generalizing l is t with
  | nil => cases hn
  | cons n' ns ih =>
    cases is with
    | nil => cases h
    | cons i is =>
      obtain ⟨l', hl', h⟩ := Option.bind_eq_some_iff.1 h
      rw [List.map_cons, List.nodup_cons] at hnodup
      cases t with
      | zero =>
        obtain rfl : n' = n := by simpa using hn
        obtain ⟨v, hv, rfl⟩ := Option.map_eq_some_iff.1 hl'
        refine ⟨l, i, v, rfl, rfl, hv, ?_⟩
        rw [getElem?_of_bindAt h hnodup.1, Tables.getElem?_insert, if_pos rfl]
      | succ t =>
        obtain ⟨f, j, v, hf, hj, hv, hm⟩ := ih h hnodup.2 hn
        refine ⟨f, j, v, ?_, hj, hv, hm⟩
        rw [List.take_succ_cons, List.take_succ_cons, bindAt, hl']
        exact hf

/-! ## The product -/

/-- The scope that a row of places stands for: each iterator is bound to the element at its place
among those that it runs over in the frame of the ones before it. This is what `bindAt` makes
(`frameAt_of_bindAt`). -/
structure FrameAt (elements : Elements) (S : Scope) (ns : List Node) (is : List Nat) (T : Scope) :
    Prop where
  child : ∃ m, elements.bindAt S ∅ ns is = some m ∧ T = S.child m
  bound : ∀ t n, ns[t]? = some n → ∃ f i v,
    elements.bindAt S ∅ (ns.take t) (is.take t) = some f ∧ is[t]? = some i ∧
      (elements n (S.child f)).1[i]? = some v ∧
      T.lookup n.id = some ⟨v, i, (elements n (S.child f)).2⟩
  rest : ∀ x ∉ ns.map Node.id, T.lookup x = S.lookup x

/-- One scope for each row of places, in strict lexicographic order of the rows. -/
structure Product (elements : Elements) (S : Scope) (ns : List Node) (rows : List (List Nat))
    (scopes : List Scope) : Prop where
  mem : ∀ is, is ∈ rows ↔ elements.Row S ∅ ns is
  ordered : rows.Pairwise (· < ·)
  frames : List.Forall₂ (elements.FrameAt S ns) rows scopes

theorem frameAt_of_bindAt (hnodup : (ns.map Node.id).Nodup)
    (h : elements.bindAt S ∅ ns is = some m) : elements.FrameAt S ns is (S.child m) where
  child := ⟨m, h, rfl⟩
  bound t n hn := by
    obtain ⟨f, i, v, hf, hi, hv, hm⟩ := getElem?_of_bindAt_of_nodup h hnodup hn
    exact ⟨f, i, v, hf, hi, hv, by rw [Scope.lookup_child, hm, Option.some_or]⟩
  rest x hx := by
    rw [Scope.lookup_child, getElem?_of_bindAt h hx, Std.ExtTreeMap.getElem?_empty, Option.none_or]

theorem product_picks (hnodup : (ns.map Node.id).Nodup) :
    elements.Product S ns ((elements.picks S ∅ ns).map Prod.fst)
      ((elements.picks S ∅ ns).map fun p => S.child p.2) where
  mem _ := mem_map_fst_picks
  ordered := List.pairwise_map.2 picks_sorted
  frames := by
    rw [List.forall₂_map_left_iff, List.forall₂_map_right_iff, List.forall₂_same]
    exact fun p hp => frameAt_of_bindAt hnodup (mem_picks.1 hp)

/-! ## One iterator after the other -/

theorem spread_nil : elements.spread S ls [] = ls := by
  simp [spread, picks]

theorem spread_singleton :
    elements.spread S ls [n] = ls.flatMap fun l => (elements.choices S n l).map Prod.snd := by
  simp only [spread, picks, List.map_cons, List.map_nil, List.map_flatMap]
  simp only [List.map_eq_flatMap]

theorem spread_cons :
    elements.spread S ls (n :: ns) = elements.spread S (elements.spread S ls [n]) ns := by
  rw [spread_singleton]
  simp only [spread, picks, List.map_flatMap, List.flatMap_assoc, List.flatMap_map, List.map_map]
  rfl

theorem length_spread (l : Locals) (ns : List Node) :
    (elements.spread S [l] ns).length = (elements.picks S l ns).length := by
  simp [spread]

/-! ## Places that do not depend on the frame -/

/-- The places of a member of a product, of which the first ones vary slowest: its number, written
with the sizes as a mixed radix. -/
def digits : List Nat → Nat → List Nat
  | [], _ => []
  | _ :: sizes, k => k / sizes.prod :: digits sizes (k % sizes.prod)

theorem flatMap_range_map {α : Type} (f : Nat → Nat → α) (a b : Nat) :
    ((List.range a).flatMap fun i => (List.range b).map (f i)) =
      (List.range (a * b)).map fun k => f (k / b) (k % b) := by
  induction a with
  | zero => simp
  | succ a ih =>
    rw [List.range_succ, List.flatMap_append, ih, Nat.succ_mul, List.range_add, List.map_append,
      List.map_map, List.flatMap_singleton]
    refine congrArg _ (List.map_congr_left fun k hk => ?_)
    have hk := List.mem_range.1 hk
    have hb : 0 < b := Nat.zero_lt_of_lt hk
    simp only [Function.comp_apply]
    rw [Nat.mul_comm a b, Nat.mul_add_div hb, Nat.mul_add_mod, Nat.div_eq_of_lt hk,
      Nat.mod_eq_of_lt hk, Nat.add_zero]

/-- Whatever the iterators before it are bound to, each one has as many elements. -/
def Steady (elements : Elements) (S : Scope) (l : Locals) (ns : List Node) (size : Node → Nat) :
    Prop :=
  ∀ t n is f, ns[t]? = some n → elements.bindAt S l (ns.take t) is = some f →
    (elements n (S.child f)).1.length = size n

namespace Steady

variable {size : Node → Nat}

theorem singleton : elements.Steady S l [n] fun n => (elements n (S.child l)).1.length := by
  rintro (_ | t) n' is f hn hf
  · obtain rfl : n = n' := by simpa using hn
    cases is with
    | nil => rw [Option.some.inj hf]
    | cons => cases hf
  · cases hn

theorem head (h : elements.Steady S l (n :: ns) size) :
    (elements n (S.child l)).1.length = size n :=
  h 0 n [] l rfl rfl

theorem tail (h : elements.Steady S l (n :: ns) size) (hm : elements.bindOne S n l i = some m) :
    elements.Steady S m ns size := by
  intro t n' is f hn hf
  refine h (t + 1) n' (i :: is) f hn ?_
  rw [List.take_succ_cons, bindAt, hm]
  exact hf

theorem take (h : elements.Steady S l ns size) (j : Nat) :
    elements.Steady S l (ns.take j) size := by
  intro t n is f hn hf
  rw [List.getElem?_take] at hn
  split at hn
  next ht =>
    rw [List.take_take, Nat.min_eq_left (Nat.le_of_lt ht)] at hf
    exact h t n is f hn hf
  next => cases hn

/-- Then all places that there are make up the rows, and the one at `k` is that of the `digits` of
`k`. -/
theorem map_fst_picks (h : elements.Steady S l ns size) :
    (elements.picks S l ns).map Prod.fst =
      (List.range (ns.map size).prod).map (digits (ns.map size)) := by
  induction ns generalizing l with
  | nil => rfl
  | cons n ns ih =>
    calc (elements.picks S l (n :: ns)).map Prod.fst
        = (elements.choices S n l).flatMap fun c =>
            ((elements.picks S c.2 ns).map Prod.fst).map (c.1 :: ·) := by
          simp only [picks, List.map_flatMap, List.map_map]
          rfl
      _ = (elements.choices S n l).flatMap fun c =>
            (List.range (ns.map size).prod).map fun k => c.1 :: digits (ns.map size) k := by
          refine List.flatMap_congr fun c hc => ?_
          rw [ih (h.tail (mem_choices.1 hc)), List.map_map]
          rfl
      _ = ((elements.choices S n l).map Prod.fst).flatMap fun i =>
            (List.range (ns.map size).prod).map fun k => i :: digits (ns.map size) k := by
          rw [List.flatMap_map]
      _ = (List.range ((n :: ns).map size).prod).map (digits ((n :: ns).map size)) := by
          rw [map_fst_choices, h.head, flatMap_range_map, List.map_cons, List.prod_cons]
          rfl

example : (List.range 6).map (digits [2, 3]) =
    [[0, 0], [0, 1], [0, 2], [1, 0], [1, 1], [1, 2]] := by decide

theorem length_picks (h : elements.Steady S l ns size) :
    (elements.picks S l ns).length = (ns.map size).prod := by
  have hlength := congrArg List.length h.map_fst_picks
  rwa [List.length_map, List.length_map, List.length_range] at hlength

end Steady

end Elements

end Dataflow
