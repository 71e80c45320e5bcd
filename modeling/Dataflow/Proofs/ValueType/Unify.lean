import Mathlib.Data.List.Induction
import Dataflow.ValueType.Unify

/-! How types unify that are made by their constructors (`Regular`).

Unification fills in what one side leaves open. What it can come to is said once, as the relation
`Joins`, and all that follows goes by induction on it. -/

namespace Dataflow.ValueType

/-- Made by the constructors. It does not matter what the fields of an object are. -/
inductive Regular : ValueType → Prop
  | unresolved : Regular unresolved
  | mismatch (reason : String) : Regular (mismatch reason)
  | string : Regular string
  | number : Regular number
  | boolean : Regular boolean
  | array {t : ValueType} : Regular t → Regular (array t)
  | pair {t : ValueType} : Regular t → Regular (pair t)
  | object (fields : List (String × ValueType)) : Regular (object fields)

/-- Two types join to a third one. -/
inductive Joins : ValueType → ValueType → ValueType → Prop
  | left {t : ValueType} : Regular t → t.isMismatch = false → Joins unresolved t t
  | right {t : ValueType} : Regular t → t.isMismatch = false → Joins t unresolved t
  | string : Joins string string string
  | number : Joins number number number
  | boolean : Joins boolean boolean boolean
  | array {x y t : ValueType} : Joins x y t → Joins (array x) (array y) (array t)
  | pair {x y t : ValueType} : Joins x y t → Joins (pair x) (pair y) (pair t)
  | object (f g h : List (String × ValueType)) : Joins (object f) (object g) (object h)

variable {a b t : ValueType}

@[simp] theorem name_unresolved : unresolved.name = "Unresolved" := rfl

@[simp] theorem name_mismatch (r : String) : (mismatch r).name = "Mismatch" := rfl

@[simp] theorem name_string : string.name = "String" := rfl

@[simp] theorem name_number : number.name = "Number" := rfl

@[simp] theorem name_boolean : boolean.name = "Boolean" := rfl

@[simp] theorem name_array (t : ValueType) : (array t).name = "Array" := rfl

@[simp] theorem name_pair (t : ValueType) : (pair t).name = "Pair" := rfl

@[simp] theorem name_object (fields : List (String × ValueType)) :
    (object fields).name = "Object" :=
  rfl

@[simp] theorem array_inj : array a = array b ↔ a = b :=
  ⟨fun h => by cases h; rfl, fun h => h ▸ rfl⟩

@[simp] theorem pair_inj : pair a = pair b ↔ a = b :=
  ⟨fun h => by cases h; rfl, fun h => h ▸ rfl⟩

theorem eq_mismatch_of_regular (h : Regular a) (hm : a.isMismatch) : ∃ r, a = mismatch r := by
  cases h with
  | mismatch r => exact ⟨r, rfl⟩
  | _ => cases hm

theorem regular_array (h : Regular (array t)) : Regular t := by
  generalize hu : array t = u at h
  cases h with
  | array h => exact array_inj.1 hu ▸ h
  | _ => exact absurd (congrArg name hu) (by simp)

theorem regular_pair (h : Regular (pair t)) : Regular t := by
  generalize hu : pair t = u at h
  cases h with
  | pair h => exact pair_inj.1 hu ▸ h
  | _ => exact absurd (congrArg name hu) (by simp)

/-! ## How constructors unify -/

theorem unify_unresolved_left (b : ValueType) : unify unresolved b = b := by
  rw [unresolved, core, unify]
  split
  next h => cases h
  next => simp [isUnresolved, isCore]

theorem unify_mismatch_left (r : String) (b : ValueType) : unify (mismatch r) b = mismatch r := by
  rw [mismatch, core, unify]
  rfl

theorem unify_of_open (hb : b.isConcrete = false) :
    unify a b = if a.isMismatch then a else if b.isMismatch then b else if a.isUnresolved then b
      else a := by
  cases a
  rw [unify]
  cases hu : b.isUnresolved with
  | true => rfl
  | false =>
    have hm : b.isMismatch = true := by simpa [isConcrete, hu] using hb
    simp only [hm, if_true]

theorem unify_unresolved_right (ha : Regular a) : unify a unresolved = a := by
  rw [unify_of_open rfl]
  cases ha <;> rfl

theorem unify_mismatch_right (ha : Regular a) (r : String) :
    ∃ r', unify a (mismatch r) = mismatch r' := by
  rw [unify_of_open rfl]
  cases ha with
  | mismatch r' => exact ⟨r', rfl⟩
  | _ => exact ⟨r, rfl⟩

theorem unifies_iff : a.unifies b ↔ (unify a b).isMismatch = false := by
  simp [unifies]

/-- Only types that are no mismatches come to one that is none. -/
theorem not_mismatch_of_unify (h : (unify a b).isMismatch = false) :
    a.isMismatch = false ∧ b.isMismatch = false := by
  cases a
  rw [unify] at h
  dsimp only at h
  split at h
  next ha => exact absurd ha (by simp [h])
  next ha =>
    split at h
    next hb => exact absurd hb (by simp [h])
    next hb => exact ⟨by simpa using ha, by simpa using hb⟩

theorem unify_clash (ha : a.isConcrete) (hb : b.isConcrete) (h : a.name ≠ b.name) :
    ∃ r, unify a b = mismatch r := by
  simp only [isConcrete, Bool.and_eq_true, Bool.not_eq_true'] at ha hb
  cases a
  rw [unify]
  simp only [ha, hb, Bool.false_eq_true, if_false, if_pos (Or.inl h)]
  exact ⟨_, rfl⟩

/-- Types of one name are joined parameter by parameter. -/
theorem unify_joined (ha : a.isConcrete) (hb : b.isConcrete) (hn : a.name = b.name)
    (hm : a.module = b.module) :
    (∀ joined, joinParams a b (unifyParams a.params) = .ok joined →
      unify a b = { a with params := joined }) ∧
    ∀ failure, joinParams a b (unifyParams a.params) = .error failure → unify a b = failure := by
  simp only [isConcrete, Bool.and_eq_true, Bool.not_eq_true'] at ha hb
  cases a
  subst hn hm
  rw [unify]
  simp only [ha, hb, Bool.false_eq_true, if_false, ne_eq, not_true, or_self]
  refine ⟨fun joined h => ?_, fun failure h => ?_⟩ <;> rw [h]

/-- A type with one parameter. -/
theorem unify_single {name display key : String} (x y : ValueType)
    (hc : (core name display [(key, x)]).isConcrete)
    (hkey : (Std.ExtTreeSet.ofList [key, key] compare).toList = [key]) :
    ((unify x y).isMismatch = false →
      unify (core name display [(key, x)]) (core name display [(key, y)]) =
        core name display [(key, unify x y)]) ∧
    ((unify x y).isMismatch →
      ∃ r, unify (core name display [(key, x)]) (core name display [(key, y)]) = mismatch r) := by
  obtain ⟨hok, herror⟩ := unify_joined (a := core name display [(key, x)])
    (b := core name display [(key, y)]) hc hc rfl rfl
  have hnames : Fields.unionNames [(key, x)] [(key, y)] = [key] := hkey
  have hjoin : joinParams (core name display [(key, x)]) (core name display [(key, y)])
      (unifyParams (core name display [(key, x)]).params) =
        (fun t => [(key, t)]) <$> twoSided (core name display [(key, x)]) key (unify x y) := by
    simp only [joinParams, core, param?, hnames, unifyParams, List.lookup_cons_self, List.mapM_cons,
      List.mapM_nil]
    cases twoSided _ key (unify x y) <;> rfl
  rw [hjoin] at hok herror
  constructor
  · intro h
    have hside : twoSided (core name display [(key, x)]) key (unify x y) = .ok (unify x y) :=
      if_neg (by simp [h])
    exact hok _ (congrArg (fun r => (fun t => [(key, t)]) <$> r) hside)
  · intro h
    obtain ⟨r, hside⟩ : ∃ r,
        twoSided (core name display [(key, x)]) key (unify x y) = .error (mismatch r) :=
      ⟨_, if_pos h⟩
    exact ⟨r, herror _ (congrArg (fun r => (fun t => [(key, t)]) <$> r) hside)⟩

theorem unify_array (x y : ValueType) :
    ((unify x y).isMismatch = false → unify (array x) (array y) = array (unify x y)) ∧
      ((unify x y).isMismatch → ∃ r, unify (array x) (array y) = mismatch r) :=
  unify_single x y rfl (by decide +kernel)

theorem unify_pair (x y : ValueType) :
    ((unify x y).isMismatch = false → unify (pair x) (pair y) = pair (unify x y)) ∧
      ((unify x y).isMismatch → ∃ r, unify (pair x) (pair y) = mismatch r) :=
  unify_single x y rfl (by decide +kernel)

/-! ### Objects -/

theorem exists_of_mapM_error {α β ε : Type} {f : α → Except ε β} {as : List α} {failure : ε}
    (h : as.mapM f = .error failure) : ∃ a ∈ as, f a = .error failure := by
  induction as with
  | nil => cases h
  | cons a as ih =>
    rw [List.mapM_cons] at h
    cases ha : f a with
    | error _ =>
      rw [ha] at h
      cases h
      exact ⟨a, List.mem_cons_self, ha⟩
    | ok b =>
      cases has : as.mapM f with
      | error _ =>
        rw [ha, has] at h
        cases h
        obtain ⟨a', ha', h⟩ := ih has
        exact ⟨a', List.mem_cons_of_mem _ ha', h⟩
      | ok bs =>
        rw [ha, has] at h
        cases h

theorem oneSided_error {key : String} {failure : ValueType}
    (h : oneSided a b key t = .error failure) : ∃ r, failure = mismatch r := by
  unfold oneSided at h
  split at h
  · cases h
  · exact ⟨_, (Except.error.inj h).symm⟩

theorem twoSided_error {key : String} {failure : ValueType}
    (h : twoSided a key t = .error failure) : ∃ r, failure = mismatch r := by
  unfold twoSided at h
  split at h
  · exact ⟨_, (Except.error.inj h).symm⟩
  · cases h

/-- Putting a name to a parameter does not fail. -/
theorem error_of_named {key : String} {x : Except ValueType ValueType} {failure : ValueType}
    (h : (x >>= fun t => pure (key, t)) = .error failure) : x = .error failure := by
  cases x with
  | error _ =>
    cases h
    rfl
  | ok _ => cases h

theorem joinParams_error {join : List (String × (ValueType → ValueType))} {failure : ValueType}
    (h : joinParams a b join = .error failure) : ∃ r, failure = mismatch r := by
  obtain ⟨key, -, h⟩ := exists_of_mapM_error h
  split at h
  · exact twoSided_error (error_of_named h)
  · exact oneSided_error (error_of_named h)
  · exact oneSided_error (error_of_named h)
  · cases error_of_named h

theorem unify_object (f g : List (String × ValueType)) :
    (∃ h, unify (object f) (object g) = object h) ∨
      ∃ r, unify (object f) (object g) = mismatch r := by
  obtain ⟨hok, herror⟩ := unify_joined (a := object f) (b := object g) rfl rfl rfl rfl
  cases h : joinParams (object f) (object g) (unifyParams (object f).params) with
  | ok joined => exact .inl ⟨joined, hok joined h⟩
  | error failure =>
    obtain ⟨r, hr⟩ := joinParams_error h
    exact .inr ⟨r, (herror failure h).trans hr⟩

/-! ## What unification comes to -/

theorem Joins.isMismatch (h : Joins a b t) : t.isMismatch = false := by
  cases h with
  | left _ hm => exact hm
  | right _ hm => exact hm
  | _ => rfl

theorem Joins.regular (h : Joins a b t) : Regular t := by
  induction h with
  | left hr _ => exact hr
  | right hr _ => exact hr
  | string => exact .string
  | number => exact .number
  | boolean => exact .boolean
  | array _ ih => exact .array ih
  | pair _ ih => exact .pair ih
  | object f g h => exact .object h

/-- An array joins to an array. -/
theorem joins_array (h : Joins (array a) b t) : ∃ u, t = array u := by
  generalize hx : array a = x at h
  cases h with
  | right _ _ => exact ⟨a, hx.symm⟩
  | @array _ _ u _ => exact ⟨u, rfl⟩
  | _ => exact absurd (congrArg name hx) (by simp)

theorem Joins.symm (h : Joins a b t) : Joins b a t := by
  induction h with
  | left hr hm => exact .right hr hm
  | right hr hm => exact .left hr hm
  | string => exact .string
  | number => exact .number
  | boolean => exact .boolean
  | array _ ih => exact .array ih
  | pair _ ih => exact .pair ih
  | object f g h => exact .object g f h

/-- Types join, or else they do not unify. The induction is on the first type, and what comes of two
parameters is known from it. -/
theorem joins_or_mismatch (ha : Regular a) (hb : Regular b) :
    Joins a b (unify a b) ∨ ∃ r, unify a b = mismatch r := by
  induction ha generalizing b with
  | unresolved =>
    rw [unify_unresolved_left]
    cases hm : b.isMismatch with
    | false => exact .inl (.left hb hm)
    | true => exact .inr (eq_mismatch_of_regular hb hm)
  | mismatch r => exact .inr ⟨r, unify_mismatch_left r b⟩
  | string =>
    cases hb with
    | unresolved => exact .inl (.right .string rfl)
    | mismatch r => exact .inr (unify_mismatch_right .string r)
    | string => exact .inl .string
    | _ => exact .inr (unify_clash rfl rfl (by simp))
  | number =>
    cases hb with
    | unresolved => exact .inl (.right .number rfl)
    | mismatch r => exact .inr (unify_mismatch_right .number r)
    | number => exact .inl .number
    | _ => exact .inr (unify_clash rfl rfl (by simp))
  | boolean =>
    cases hb with
    | unresolved => exact .inl (.right .boolean rfl)
    | mismatch r => exact .inr (unify_mismatch_right .boolean r)
    | boolean => exact .inl .boolean
    | _ => exact .inr (unify_clash rfl rfl (by simp))
  | @array x hx ih =>
    cases hb with
    | unresolved => exact .inl (unify_unresolved_right (.array hx) ▸ .right (.array hx) rfl)
    | mismatch r => exact .inr (unify_mismatch_right (.array hx) r)
    | @array y hy =>
      obtain ⟨hok, herror⟩ := unify_array x y
      rcases ih hy with h | ⟨r, h⟩
      · exact .inl (hok h.isMismatch ▸ .array h)
      · exact .inr (herror (h ▸ rfl))
    | _ => exact .inr (unify_clash rfl rfl (by simp))
  | @pair x hx ih =>
    cases hb with
    | unresolved => exact .inl (unify_unresolved_right (.pair hx) ▸ .right (.pair hx) rfl)
    | mismatch r => exact .inr (unify_mismatch_right (.pair hx) r)
    | @pair y hy =>
      obtain ⟨hok, herror⟩ := unify_pair x y
      rcases ih hy with h | ⟨r, h⟩
      · exact .inl (hok h.isMismatch ▸ .pair h)
      · exact .inr (herror (h ▸ rfl))
    | _ => exact .inr (unify_clash rfl rfl (by simp))
  | object f =>
    cases hb with
    | unresolved => exact .inl (unify_unresolved_right (.object f) ▸ .right (.object f) rfl)
    | mismatch r => exact .inr (unify_mismatch_right (.object f) r)
    | object g =>
      rcases unify_object f g with ⟨h, heq⟩ | hr
      · exact .inl (heq ▸ .object f g h)
      · exact .inr hr
    | _ => exact .inr (unify_clash rfl rfl (by simp))

theorem Joins.of_unify (ha : Regular a) (hb : Regular b) (h : (unify a b).isMismatch = false) :
    Joins a b (unify a b) := by
  rcases joins_or_mismatch ha hb with hj | ⟨r, hr⟩
  · exact hj
  · rw [hr] at h
    cases h

theorem Joins.of_unifies (ha : Regular a) (hb : Regular b) (h : a.unifies b) :
    Joins a b (unify a b) :=
  .of_unify ha hb (unifies_iff.1 h)

theorem regular_unify (ha : Regular a) (hb : Regular b) : Regular (unify a b) := by
  rcases joins_or_mismatch ha hb with hj | ⟨r, hr⟩
  · exact hj.regular
  · exact hr ▸ .mismatch r

/-! ## Many types at once -/

variable {ts : List ValueType}

theorem unifyAll_concat (ts : List ValueType) (t : ValueType) :
    unifyAll (ts ++ [t]) = unify (unifyAll ts) t := by
  simp only [unifyAll, List.foldl_append, List.foldl_cons, List.foldl_nil]

theorem regular_unifyAll (h : ∀ t ∈ ts, Regular t) : Regular (unifyAll ts) := by
  induction ts using List.reverseRecOn with
  | nil => exact .unresolved
  | append_singleton ts t ih =>
    rw [unifyAll_concat]
    exact regular_unify (ih fun t ht => h t (List.mem_append_left _ ht)) (h t (by simp))

end Dataflow.ValueType
