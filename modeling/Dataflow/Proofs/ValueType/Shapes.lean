import Dataflow.Proofs.ValueType.Unify

/-! Types of one shape, and what many types come to one after the other.

Where two types join, they have one shape: `Joins.shapes`. The shape of a type leaves out what a
pair or an object holds, so a type keeps it when more goes into these. -/

namespace Dataflow.ValueType

/-- As far as neither is open the types are the same, whatever is in a pair or an object. -/
inductive Shapes : ValueType → ValueType → Prop
  | left {t : ValueType} : Shapes unresolved t
  | right {t : ValueType} : Shapes t unresolved
  | string : Shapes string string
  | number : Shapes number number
  | boolean : Shapes boolean boolean
  | array {x t : ValueType} : Shapes x t → Shapes (array x) (array t)
  | pair {x t : ValueType} : Shapes (pair x) (pair t)
  | object {f g : List (String × ValueType)} : Shapes (object f) (object g)

variable {a b t u : ValueType} {f g : List (String × ValueType)} {ts : List ValueType}

/-! ## What constructors allow -/

theorem shapes_array (h : Shapes (array a) t) : t = unresolved ∨ ∃ u, t = array u ∧ Shapes a u := by
  generalize hx : array a = x at h
  cases h with
  | right => exact .inl rfl
  | @array x u h => exact .inr ⟨u, rfl, array_inj.1 hx ▸ h⟩
  | _ => exact absurd (congrArg name hx) (by simp)

theorem shapes_pair (h : Shapes (pair a) t) : t = unresolved ∨ ∃ u, t = pair u := by
  generalize hx : pair a = x at h
  cases h with
  | right => exact .inl rfl
  | @pair x u => exact .inr ⟨u, rfl⟩
  | _ => exact absurd (congrArg name hx) (by simp)

theorem shapes_object (h : Shapes (object f) t) : t = unresolved ∨ ∃ g, t = object g := by
  generalize hx : object f = x at h
  cases h with
  | right => exact .inl rfl
  | @object f g => exact .inr ⟨g, rfl⟩
  | _ => exact absurd (congrArg name hx) (by simp)

theorem shapes_leaf (ha : a = string ∨ a = number ∨ a = boolean) (h : Shapes a t) :
    t = unresolved ∨ t = a := by
  cases h with
  | right => exact .inl rfl
  | string => exact .inr rfl
  | number => exact .inr rfl
  | boolean => exact .inr rfl
  | _ => rcases ha with ha | ha | ha <;> exact absurd (congrArg name ha) (by simp)

theorem Shapes.symm (h : Shapes a b) : Shapes b a := by
  induction h with
  | left => exact .right
  | right => exact .left
  | string => exact .string
  | number => exact .number
  | boolean => exact .boolean
  | array _ ih => exact .array ih
  | pair => exact .pair
  | object => exact .object

theorem Shapes.pair_any (h : Shapes t (.pair a)) (b : ValueType) : Shapes t (.pair b) := by
  rcases shapes_pair h.symm with rfl | ⟨u, rfl⟩
  · exact .left
  · exact .pair

theorem Shapes.object_any (h : Shapes t (.object f)) (g : List (String × ValueType)) :
    Shapes t (.object g) := by
  rcases shapes_object h.symm with rfl | ⟨f', rfl⟩
  · exact .left
  · exact .object

/-! ## Joining -/

/-- Of two types that join neither is a mismatch. -/
theorem Joins.left_not_mismatch (h : Joins a b t) : a.isMismatch = false := by
  cases h with
  | right _ hm => exact hm
  | _ => rfl

/-- Types that join have one shape. -/
theorem Joins.shapes (h : Joins a b t) : Shapes a b := by
  induction h with
  | left _ _ => exact .left
  | right _ _ => exact .right
  | string => exact .string
  | number => exact .number
  | boolean => exact .boolean
  | array _ ih => exact .array ih
  | pair _ _ => exact .pair
  | object _ _ _ => exact .object

/-- What has the shape of a type that two others join to has the shape of either of them. -/
theorem Joins.shapes_left (h : Joins a b t) (ht : Shapes t u) : Shapes a u := by
  induction h generalizing u with
  | left _ _ => exact .left
  | right _ _ => exact ht
  | string => exact ht
  | number => exact ht
  | boolean => exact ht
  | array _ ih =>
    rcases shapes_array ht with rfl | ⟨v, rfl, hv⟩
    · exact .right
    · exact .array (ih hv)
  | pair _ _ =>
    rcases shapes_pair ht with rfl | ⟨v, rfl⟩
    · exact .right
    · exact .pair
  | object _ _ _ =>
    rcases shapes_object ht with rfl | ⟨v, rfl⟩
    · exact .right
    · exact .object

/-! ## Many types at once -/

/-- One after the other the types join. -/
theorem joins_of_unifyAll (hr : ∀ x ∈ ts ++ [t], Regular x)
    (hok : (unifyAll (ts ++ [t])).isMismatch = false) :
    (unifyAll ts).isMismatch = false ∧ Joins (unifyAll ts) t (unifyAll (ts ++ [t])) := by
  have hts : ∀ x ∈ ts, Regular x := fun x hx => hr x (List.mem_append_left _ hx)
  rw [unifyAll_concat] at hok ⊢
  exact ⟨(not_mismatch_of_unify hok).1, .of_unify (regular_unifyAll hts) (hr t (by simp)) hok⟩

/-- What many types come to has come of each of them by joining. -/
theorem unifyAll_induct {motive : ValueType → ValueType → Prop}
    (join : ∀ {x y t}, Joins x y t → motive x t ∧ motive y t)
    (trans : ∀ {x y t}, motive x y → motive y t → motive x t)
    (hr : ∀ x ∈ ts, Regular x) (hok : (unifyAll ts).isMismatch = false) (ht : t ∈ ts) :
    motive t (unifyAll ts) := by
  induction ts using List.reverseRecOn with
  | nil => cases ht
  | append_singleton ts x ih =>
    obtain ⟨hts, hj⟩ := joins_of_unifyAll hr hok
    rcases List.mem_append.1 ht with ht | ht
    · exact trans (ih (fun x hx => hr x (List.mem_append_left _ hx)) hts ht) (join hj).1
    · exact List.mem_singleton.1 ht ▸ (join hj).2

theorem shapes_of_unifyAll (hr : ∀ x ∈ ts, Regular x) (hok : (unifyAll ts).isMismatch = false)
    (hs : Shapes (unifyAll ts) u) (ht : t ∈ ts) : Shapes t u :=
  unifyAll_induct (motive := fun x y => Shapes y u → Shapes x u)
    (fun hj => ⟨hj.shapes_left, hj.symm.shapes_left⟩) (fun hxy hyt h => hxy (hyt h)) hr hok ht hs

/-- What has the shape of two types has that of what they come to. -/
theorem Joins.shapes_right (h : Joins a b t) (ha : Shapes u a) (hb : Shapes u b) : Shapes u t := by
  induction h generalizing u with
  | left _ _ => exact hb
  | right _ _ => exact ha
  | string => exact ha
  | number => exact ha
  | boolean => exact ha
  | array _ ih =>
    rcases shapes_array ha.symm with rfl | ⟨v, rfl, hv⟩
    · exact .left
    rcases shapes_array hb.symm with hopen | ⟨w, hw, hb⟩
    · exact absurd (congrArg name hopen) (by simp)
    · exact .array (ih hv.symm (array_inj.1 hw ▸ hb.symm))
  | pair _ _ => exact ha.pair_any _
  | object _ _ _ => exact ha.object_any _

theorem shapes_unifyAll (hr : ∀ x ∈ ts, Regular x) (hok : (unifyAll ts).isMismatch = false)
    (h : ∀ x ∈ ts, Shapes u x) : Shapes u (unifyAll ts) := by
  induction ts using List.reverseRecOn with
  | nil => exact .right
  | append_singleton ts x ih =>
    obtain ⟨hts, hj⟩ := joins_of_unifyAll hr hok
    exact hj.shapes_right (ih (fun x hx => hr x (List.mem_append_left _ hx)) hts
      fun x hx => h x (List.mem_append_left _ hx)) (h x (by simp))

/-! ## Settled types -/

/-- Nothing is left open in it. An object is always open, for it may take on more fields. -/
inductive Settled : ValueType → Prop
  | string : Settled string
  | number : Settled number
  | boolean : Settled boolean
  | array {t : ValueType} : Settled t → Settled (array t)
  | pair {t : ValueType} : Settled t → Settled (pair t)

theorem settled_array (h : Settled (array t)) : Settled t := by
  generalize hu : array t = u at h
  cases h with
  | array h => exact array_inj.1 hu ▸ h
  | _ => exact absurd (congrArg name hu) (by simp)

theorem settled_pair (h : Settled (pair t)) : Settled t := by
  generalize hu : pair t = u at h
  cases h with
  | pair h => exact pair_inj.1 hu ▸ h
  | _ => exact absurd (congrArg name hu) (by simp)

theorem Settled.regular (h : Settled t) : Regular t := by
  induction h with
  | string => exact .string
  | number => exact .number
  | boolean => exact .boolean
  | array _ ih => exact .array ih
  | pair _ ih => exact .pair ih

theorem Settled.isMismatch (h : Settled t) : t.isMismatch = false := by
  cases h <;> rfl

theorem Settled.name_ne (h : Settled t) : t.name ≠ "Unresolved" ∧ t.name ≠ "Object" := by
  cases h <;> simp

/-- A settled type joins only with what leaves it as it is. -/
theorem Joins.eq_of_settled (h : Joins a b t) (ha : Settled a) : t = a := by
  induction h with
  | left _ _ => exact absurd rfl ha.name_ne.1
  | array _ ih => rw [ih (settled_array ha)]
  | pair _ ih => rw [ih (settled_pair ha)]
  | object f _ _ => exact absurd rfl ha.name_ne.2
  | _ => rfl

theorem Settled.unify_eq (ha : Settled a) (hb : Regular b) (hm : (unify a b).isMismatch = false) :
    unify a b = a :=
  (Joins.of_unify ha.regular hb hm).eq_of_settled ha

theorem unify_array_ok (h : (unify (array a) (array b)).isMismatch = false) :
    (unify a b).isMismatch = false := by
  by_contra hm
  obtain ⟨r, hr⟩ := (unify_array a b).2 (by simpa using hm)
  rw [hr] at h
  cases h

theorem unify_pair_ok (h : (unify (pair a) (pair b)).isMismatch = false) :
    (unify a b).isMismatch = false := by
  by_contra hm
  obtain ⟨r, hr⟩ := (unify_pair a b).2 (by simpa using hm)
  rw [hr] at h
  cases h

theorem Settled.unify_self (h : Settled a) : unify a a = a := by
  induction h with
  | string => decide
  | number => decide
  | boolean => decide
  | @array t ht ih => exact ((unify_array t t).1 (ih.symm ▸ ht.isMismatch)).trans (ih.symm ▸ rfl)
  | @pair t ht ih => exact ((unify_pair t t).1 (ih.symm ▸ ht.isMismatch)).trans (ih.symm ▸ rfl)

theorem unify_unify_leaf (ha : a = string ∨ a = number ∨ a = boolean) (hs : Settled a)
    (hb : Regular b) (hu : Regular u) (hmb : (unify a b).isMismatch = false)
    (hmu : (unify a u).isMismatch = false) : unify a (unify b u) = a := by
  rcases shapes_leaf ha (Joins.of_unify hs.regular hb hmb).shapes with rfl | rfl
  · rw [unify_unresolved_left, hs.unify_eq hu hmu]
  · rw [hs.unify_eq hu hmu, hs.unify_self]

/-- If a settled type unifies with two others, they unify to one that leaves it as it is. -/
theorem Settled.unify_unify (ha : Settled a) (hb : Regular b) (hu : Regular u)
    (hmb : (unify a b).isMismatch = false) (hmu : (unify a u).isMismatch = false) :
    unify a (unify b u) = a := by
  induction ha generalizing b u with
  | string => exact unify_unify_leaf (.inl rfl) .string hb hu hmb hmu
  | number => exact unify_unify_leaf (.inr (.inl rfl)) .number hb hu hmb hmu
  | boolean => exact unify_unify_leaf (.inr (.inr rfl)) .boolean hb hu hmb hmu
  | @array x hx ih =>
    have hs := hx.array
    rcases shapes_array (Joins.of_unify hs.regular hb hmb).shapes with rfl | ⟨y, rfl, -⟩
    · rw [unify_unresolved_left, hs.unify_eq hu hmu]
    rcases shapes_array (Joins.of_unify hs.regular hu hmu).shapes with rfl | ⟨z, rfl, -⟩
    · rw [unify_unresolved_right hb, hs.unify_eq hb hmb]
    have hxyz := ih (regular_array hb) (regular_array hu) (unify_array_ok hmb) (unify_array_ok hmu)
    have hok : (unify x (unify y z)).isMismatch = false := hxyz.symm ▸ hx.isMismatch
    rw [(unify_array y z).1 (not_mismatch_of_unify hok).2, (unify_array x _).1 hok, hxyz]
  | @pair x hx ih =>
    have hs := hx.pair
    rcases shapes_pair (Joins.of_unify hs.regular hb hmb).shapes with rfl | ⟨y, rfl⟩
    · rw [unify_unresolved_left, hs.unify_eq hu hmu]
    rcases shapes_pair (Joins.of_unify hs.regular hu hmu).shapes with rfl | ⟨z, rfl⟩
    · rw [unify_unresolved_right hb, hs.unify_eq hb hmb]
    have hxyz := ih (regular_pair hb) (regular_pair hu) (unify_pair_ok hmb) (unify_pair_ok hmu)
    have hok : (unify x (unify y z)).isMismatch = false := hxyz.symm ▸ hx.isMismatch
    rw [(unify_pair y z).1 (not_mismatch_of_unify hok).2, (unify_pair x _).1 hok, hxyz]

theorem Settled.unify_unifyAll (ha : Settled a) (hr : ∀ x ∈ ts, Regular x)
    (h : ∀ x ∈ ts, (unify a x).isMismatch = false) : unify a (unifyAll ts) = a := by
  induction ts using List.reverseRecOn with
  | nil => exact unify_unresolved_right ha.regular
  | append_singleton ts x ih =>
    have hts := ih (fun x hx => hr x (List.mem_append_left _ hx)) fun x hx =>
      h x (List.mem_append_left _ hx)
    rw [unifyAll_concat]
    exact ha.unify_unify (regular_unifyAll fun x hx => hr x (List.mem_append_left _ hx))
      (hr x (by simp)) (hts.symm ▸ ha.isMismatch) (h x (by simp))

theorem Settled.unifyAll_eq (ha : Settled a) (hne : ts ≠ []) (h : ∀ x ∈ ts, x = a) :
    unifyAll ts = a := by
  induction ts using List.reverseRecOn with
  | nil => exact absurd rfl hne
  | append_singleton ts x ih =>
    rw [unifyAll_concat, h x (by simp)]
    by_cases hts : ts = []
    · rw [hts]
      exact unify_unresolved_left a
    · rw [ih hts fun x hx => h x (List.mem_append_left _ hx), ha.unify_self]

end Dataflow.ValueType
