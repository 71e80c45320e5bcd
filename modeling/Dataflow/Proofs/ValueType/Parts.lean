import Dataflow.Proofs.Fields
import Dataflow.Proofs.ValueType.Conforms

/-! The parts of a type, and what two types of any shape come to.

Unification is looked at through the look-ups of parameters alone: what becomes of each parameter is
told by one relation (`AgreeAt`), and what two types come to by another one over it (`ComesTo`). -/

namespace Dataflow.ValueType

variable {a b c t u x : ValueType} {key : String}

/-! ## Parts -/

/-- The type itself, its parameters, and so on. -/
inductive Part : ValueType → ValueType → Prop
  | self (t : ValueType) : Part t t
  | param {t u a : ValueType} {key : String} : (key, u) ∈ a.params → Part t u → Part t a

theorem Part.cases (h : Part t a) : t = a ∨ ∃ key u, (key, u) ∈ a.params ∧ Part t u := by
  cases h with
  | self => exact .inl rfl
  | param hu ht => exact .inr ⟨_, _, hu, ht⟩

/-- What holds of a type and of the parts of its parameters holds of its parts. -/
theorem forall_part {p : ValueType → Prop} (h : p a)
    (hparams : ∀ {key x}, (key, x) ∈ a.params → ∀ t, Part t x → p t) : ∀ t, Part t a → p t := by
  intro t ht
  rcases ht.cases with rfl | ⟨key, x, hx, ht⟩
  · exact h
  · exact hparams hx t ht

theorem hasMismatch_iff_part : HasMismatch a ↔ ∃ t, Part t a ∧ t.isMismatch := by
  constructor
  · intro h
    induction h with
    | @here t hm => exact ⟨t, .self t, hm⟩
    | param hmem _ ih =>
      obtain ⟨t, ht, hm⟩ := ih
      exact ⟨t, .param hmem ht, hm⟩
  · rintro ⟨t, ht, hm⟩
    induction ht with
    | self => exact .here hm
    | param hmem _ ih => exact .param hmem ih

theorem sizeOf_param (h : (key, t) ∈ a.params) : sizeOf t < sizeOf a := by
  cases a
  have := List.sizeOf_lt_of_mem h
  simp only [Prod.mk.sizeOf_spec] at this
  simp only [mk.sizeOf_spec]
  omega

/-- What holds of a type if it holds of its parameters holds of all types. -/
theorem params_induction {motive : ValueType → Prop}
    (step : ∀ a, (∀ {key t}, (key, t) ∈ a.params → motive t) → motive a) (a : ValueType) :
    motive a :=
  step a fun {_ t} _ => params_induction step t
termination_by sizeOf a
decreasing_by exact sizeOf_param ‹_›

theorem mem_params_of_param? (h : a.param? key = some t) : (key, t) ∈ a.params :=
  Fields.mem_of_lookup h

/-- In every part the parameters stand in the order of their names, each once. -/
def Ordered (a : ValueType) : Prop := ∀ t, Part t a → Fields.Sorted t.params

/-- What is left open has no parameters. -/
def Bare (a : ValueType) : Prop := ∀ t, Part t a → t.isUnresolved → t.params = []

theorem Ordered.param (h : Ordered a) (hx : (key, x) ∈ a.params) : Ordered x :=
  fun t ht => h t (.param hx ht)

theorem Ordered.param?_iff (h : Ordered a) : a.param? key = some x ↔ (key, x) ∈ a.params :=
  (h a (.self a)).lookup_iff

theorem Bare.param (h : Bare a) (hx : (key, x) ∈ a.params) : Bare x :=
  fun t ht => h t (.param hx ht)

/-! ## Kinds of types -/

theorem eq_of_isUnresolved (h : a.isUnresolved) : a.name = "Unresolved" ∧ a.module = "Core" := by
  simpa [isUnresolved, isCore, and_comm] using h

theorem isMismatch_of_isUnresolved (h : a.isUnresolved) : a.isMismatch = false := by
  simp [isMismatch, isCore, eq_of_isUnresolved h]

theorem isConcrete_iff : a.isConcrete ↔ a.isUnresolved = false ∧ a.isMismatch = false := by
  simp [isConcrete]

theorem not_open_of_concrete (h : a.isConcrete) : ¬a.isUnresolved := by
  simp [isConcrete_iff.1 h]

/-- A type that is no mismatch is open or concrete. -/
theorem isUnresolved_or_isConcrete (h : a.isMismatch = false) : a.isUnresolved ∨ a.isConcrete := by
  cases hu : a.isUnresolved with
  | true => exact .inl rfl
  | false => exact .inr (isConcrete_iff.2 ⟨hu, h⟩)

/-- Neither type is open or a mismatch, and they have one name. -/
structure Alike (a b : ValueType) : Prop where
  left : a.isConcrete
  right : b.isConcrete
  name : a.name = b.name
  module : a.module = b.module

theorem Alike.symm (h : Alike a b) : Alike b a := ⟨h.right, h.left, h.name.symm, h.module.symm⟩

theorem Alike.trans (h : Alike a b) (h' : Alike b c) : Alike a c :=
  ⟨h.left, h'.right, h.name.trans h'.name, h.module.trans h'.module⟩

theorem params_eq_nil_iff : a.params = [] ↔ ∀ key, a.param? key = none := by
  constructor
  · intro h key
    rw [param?, h]
    rfl
  · refine fun h => List.eq_nil_iff_forall_not_mem.2 fun kt hkt => ?_
    have hsome : (a.param? kt.1).isSome := Fields.isSome_lookup.2 (List.mem_map_of_mem hkt)
    simp [h] at hsome

/-! ## What becomes of a parameter -/

/-- The parameters of two types come to `t` at a key. -/
inductive AgreeAt (a b : ValueType) (key : String) (t : Option ValueType) : Prop
  | both {x y : ValueType} : a.param? key = some x → b.param? key = some y →
    (unify x y).isMismatch = false → t = some (unify x y) → AgreeAt a b key t
  | left {x : ValueType} : a.param? key = some x → b.param? key = none →
    b.params = [] ∨ x.isUnresolved → t = some x → AgreeAt a b key t
  | right {y : ValueType} : a.param? key = none → b.param? key = some y →
    a.params = [] ∨ y.isUnresolved → t = some y → AgreeAt a b key t
  | neither : a.param? key = none → b.param? key = none → t = none → AgreeAt a b key t

theorem AgreeAt.isSome_iff {t : Option ValueType} (h : AgreeAt a b key t) :
    t.isSome ↔ (a.param? key).isSome ∨ (b.param? key).isSome := by
  rcases h with ⟨ha, hb, -, ht⟩ | ⟨ha, hb, -, ht⟩ | ⟨ha, hb, -, ht⟩ | ⟨ha, hb, ht⟩ <;>
    simp [ha, hb, ht]

theorem AgreeAt.eq_none_iff {t : Option ValueType} (h : AgreeAt a b key t) :
    t = none ↔ a.param? key = none ∧ b.param? key = none := by
  simpa using not_congr h.isSome_iff

/-- Where a parameter comes from. -/
theorem AgreeAt.of_some (h : AgreeAt a b key (some t)) :
    (∃ x y, a.param? key = some x ∧ b.param? key = some y ∧ (unify x y).isMismatch = false ∧
      t = unify x y) ∨ a.param? key = some t ∨ b.param? key = some t := by
  cases h with
  | both hx hy hm ht => exact .inl ⟨_, _, hx, hy, hm, Option.some.inj ht⟩
  | left hx _ _ ht => exact .inr (.inl (ht ▸ hx))
  | right _ hy _ ht => exact .inr (.inr (ht ▸ hy))
  | neither _ _ ht => cases ht

/-- What becomes of a parameter of the first type. -/
theorem AgreeAt.of_left {t : Option ValueType} (h : AgreeAt a b key t)
    (hx : a.param? key = some x) :
    (∃ y, b.param? key = some y ∧ (unify x y).isMismatch = false ∧ t = some (unify x y)) ∨
      t = some x := by
  cases h with
  | both hx' hy hm ht =>
    cases hx.symm.trans hx'
    exact .inl ⟨_, hy, hm, ht⟩
  | left hx' _ _ ht =>
    cases hx.symm.trans hx'
    exact .inr ht
  | right hx' _ _ _ => cases hx.symm.trans hx'
  | neither hx' _ _ => cases hx.symm.trans hx'

/-- What becomes of a parameter of the second type. -/
theorem AgreeAt.of_right {t : Option ValueType} (h : AgreeAt a b key t)
    (hy : b.param? key = some x) :
    (∃ y, a.param? key = some y ∧ (unify y x).isMismatch = false ∧ t = some (unify y x)) ∨
      t = some x := by
  cases h with
  | both hx hy' hm ht =>
    cases hy.symm.trans hy'
    exact .inl ⟨_, hx, hm, ht⟩
  | left _ hy' _ _ => cases hy.symm.trans hy'
  | right _ hy' _ ht =>
    cases hy.symm.trans hy'
    exact .inr ht
  | neither _ hy' _ => cases hy.symm.trans hy'

/-- The parameters of two types come to something at a key. -/
structure FitAt (a b : ValueType) (key : String) : Prop where
  both {x y : ValueType} : a.param? key = some x → b.param? key = some y →
    (unify x y).isMismatch = false
  left {x : ValueType} : a.param? key = some x → b.param? key = none →
    b.params = [] ∨ x.isUnresolved
  right {y : ValueType} : a.param? key = none → b.param? key = some y →
    a.params = [] ∨ y.isUnresolved

theorem exists_agreeAt_iff : (∃ t, AgreeAt a b key t) ↔ FitAt a b key := by
  constructor
  · rintro ⟨t, h⟩
    constructor <;> intros <;> cases h <;> simp_all
  · intro h
    cases ha : a.param? key with
    | some x =>
      cases hb : b.param? key with
      | some y => exact ⟨_, .both ha hb (h.both ha hb) rfl⟩
      | none => exact ⟨_, .left ha hb (h.left ha hb) rfl⟩
    | none =>
      cases hb : b.param? key with
      | some y => exact ⟨_, .right ha hb (h.right ha hb) rfl⟩
      | none => exact ⟨_, .neither ha hb rfl⟩

theorem oneSided_eq_ok : oneSided a b key x = .ok t ↔ (b.params = [] ∨ x.isUnresolved) ∧ x = t := by
  simp only [oneSided, Bool.or_eq_true, List.isEmpty_iff]
  split <;> simp_all

theorem twoSided_eq_ok : twoSided a key x = .ok t ↔ x.isMismatch = false ∧ x = t := by
  simp only [twoSided]
  split <;> simp_all

/-- A parameter that stands on either side. -/
def joinAt (a b : ValueType) (key : String) : Except ValueType ValueType :=
  match a.param? key, b.param? key with
  | some x, some y => twoSided a key (unify x y)
  | some x, none => oneSided a b key x
  | none, some y => oneSided b a key y
  | none, none => .ok unresolved

theorem joinAt_eq_ok (h : (a.param? key).isSome ∨ (b.param? key).isSome) :
    joinAt a b key = .ok t ↔ AgreeAt a b key (some t) := by
  unfold joinAt
  cases ha : a.param? key with
  | some x =>
    cases hb : b.param? key with
    | some y =>
      dsimp only
      rw [twoSided_eq_ok]
      refine ⟨fun ⟨hm, ht⟩ => .both ha hb hm (ht ▸ rfl), fun h => ?_⟩
      cases h <;> simp_all
    | none =>
      dsimp only
      rw [oneSided_eq_ok]
      refine ⟨fun ⟨hx, ht⟩ => .left ha hb hx (ht ▸ rfl), fun h => ?_⟩
      cases h <;> simp_all
  | none =>
    cases hb : b.param? key with
    | some y =>
      dsimp only
      rw [oneSided_eq_ok]
      refine ⟨fun ⟨hy, ht⟩ => .right ha hb hy (ht ▸ rfl), fun h => ?_⟩
      cases h <;> simp_all
    | none => simp [ha, hb] at h

theorem lookup_unifyParams (ps : List (String × ValueType)) (key : String) :
    (unifyParams ps).lookup key = (ps.lookup key).map unify := by
  induction ps with
  | nil => rfl
  | cons kt ps ih =>
    obtain ⟨k, t⟩ := kt
    rw [unifyParams, List.lookup_cons, List.lookup_cons]
    split
    · rfl
    · exact ih

theorem joinParams_eq : joinParams a b (unifyParams a.params) =
    (Fields.unionNames a.params b.params).mapM fun key => return (key, ← joinAt a b key) := by
  unfold joinParams
  congr 1
  funext key
  rw [lookup_unifyParams, joinAt, ← param?]
  cases a.param? key <;> cases b.param? key <;> rfl

/-- Every name is put to what it stands for. -/
theorem mapM_named_ok {f : String → Except ValueType ValueType} {keys : List String}
    {fields : List (String × ValueType)} :
    (keys.mapM fun key => return (key, ← f key)) = .ok fields ↔
      fields.map Prod.fst = keys ∧ ∀ kt ∈ fields, f kt.1 = .ok kt.2 := by
  induction keys generalizing fields with
  | nil =>
    rw [List.mapM_nil]
    constructor
    · rintro ⟨⟩
      exact ⟨rfl, List.forall_mem_nil _⟩
    · rintro ⟨h, -⟩
      rw [List.map_eq_nil_iff.1 h]
      rfl
  | cons key keys ih =>
    rw [List.mapM_cons]
    constructor
    · intro h
      cases ht : f key with
      | error _ =>
        rw [ht] at h
        cases h
      | ok t =>
        cases hrest : keys.mapM fun key => return (key, ← f key) with
        | error _ =>
          rw [ht, hrest] at h
          cases h
        | ok rest =>
          rw [ht, hrest] at h
          cases h
          obtain ⟨hnames, hall⟩ := ih.1 hrest
          exact ⟨congrArg (key :: ·) hnames, List.forall_mem_cons.2 ⟨ht, hall⟩⟩
    · rintro ⟨hnames, hall⟩
      obtain ⟨⟨k, t⟩, rest, rfl, rfl, hrest⟩ := List.map_eq_cons_iff.1 hnames
      obtain ⟨ht, hall⟩ := List.forall_mem_cons.1 hall
      rw [ih.2 ⟨hrest, hall⟩, show f k = .ok t from ht]
      rfl

/-- The joined parameters are those that agree at all keys. -/
theorem joinParams_eq_ok {fields : Fields ValueType} :
    joinParams a b (unifyParams a.params) = .ok fields ↔
      fields.Sorted ∧ ∀ key, AgreeAt a b key (fields.lookup key) := by
  rw [joinParams_eq, mapM_named_ok]
  constructor
  · rintro ⟨hnames, hall⟩
    have hsorted : (fields.map Prod.fst).Pairwise (· < ·) := hnames ▸ Fields.pairwise_unionNames ..
    refine ⟨hsorted, fun key => ?_⟩
    have hside : (fields.lookup key).isSome ↔ (a.param? key).isSome ∨ (b.param? key).isSome := by
      rw [Fields.isSome_lookup, hnames, Fields.mem_unionNames]
      rfl
    cases hkey : fields.lookup key with
    | some t =>
      have ht : joinAt a b key = .ok t := hall _ (Fields.mem_of_lookup hkey)
      exact (joinAt_eq_ok (hside.1 (by simp [hkey]))).1 ht
    | none =>
      simp only [hkey, Option.isSome_none, Bool.false_eq_true, false_iff, not_or,
        Option.not_isSome_iff_eq_none] at hside
      exact .neither hside.1 hside.2 rfl
  · rintro ⟨hsorted, hagree⟩
    refine ⟨Fields.eq_of_ascending id hsorted (Fields.pairwise_unionNames ..) fun key => ?_,
      fun kt hkt => ?_⟩
    · rw [← Fields.isSome_lookup, Fields.mem_unionNames]
      exact (hagree key).isSome_iff
    · have hkey := hsorted.lookup_iff.2 hkt
      exact (joinAt_eq_ok ((hagree kt.1).isSome_iff.1 (by simp [hkey]))).2 (hkey ▸ hagree kt.1)

/-! ## What two types come to -/

/-- Two types come to a third one, which is no mismatch. -/
inductive ComesTo (a b t : ValueType) : Prop
  | left : a.isUnresolved → b.isMismatch = false → t = b → ComesTo a b t
  | right : a.isConcrete → b.isUnresolved → t = a → ComesTo a b t
  | both : Alike a b → t = { a with params := t.params } → Fields.Sorted t.params →
    (∀ key, AgreeAt a b key (t.param? key)) → ComesTo a b t

/-- Two types come to one without parameters only if they have none. -/
theorem agreeAt_params_eq_nil (h : ∀ key, AgreeAt a b key (t.param? key)) :
    t.params = [] ↔ a.params = [] ∧ b.params = [] := by
  simp only [params_eq_nil_iff, (h _).eq_none_iff, forall_and]

theorem Alike.of_params (h : Alike a b) (ht : t = { a with params := t.params }) : Alike a t := by
  rw [ht]
  exact ⟨h.left, h.left, rfl, rfl⟩

theorem unify_left_open (h : a.isUnresolved) : unify a b = b := by
  have hm := isMismatch_of_isUnresolved h
  cases a
  rw [unify]
  simp only [hm, h, Bool.false_eq_true, if_false, if_true]
  split <;> rfl

theorem unify_right_open (ha : a.isConcrete) (h : b.isUnresolved) : unify a b = a := by
  obtain ⟨hu, hm⟩ := isConcrete_iff.1 ha
  rw [unify_of_open (by simp [isConcrete, h])]
  simp [hm, hu, isMismatch_of_isUnresolved h]

theorem alike_of_unify (ha : a.isConcrete) (hb : b.isConcrete)
    (h : (unify a b).isMismatch = false) : Alike a b := by
  suffices a.name = b.name ∧ a.module = b.module from ⟨ha, hb, this.1, this.2⟩
  rw [isConcrete_iff] at ha hb
  cases a
  rw [unify] at h
  simp only [ha, hb, Bool.false_eq_true, if_false] at h
  split at h
  · cases h
  next hn => exact (not_or.1 hn).imp not_not.1 not_not.1

theorem ComesTo.isMismatch (h : ComesTo a b t) : t.isMismatch = false := by
  cases h with
  | left _ hb ht => exact ht ▸ hb
  | right ha _ ht => exact ht ▸ (isConcrete_iff.1 ha).2
  | both hab ht _ _ => exact ht ▸ (isConcrete_iff.1 hab.left).2

theorem ComesTo.unify_eq (h : ComesTo a b t) : unify a b = t := by
  cases h with
  | left ha _ ht => exact (unify_left_open ha).trans ht.symm
  | right ha hb ht => exact (unify_right_open ha hb).trans ht.symm
  | both hab ht hsorted hagree =>
    obtain ⟨hok, -⟩ := unify_joined hab.left hab.right hab.name hab.module
    exact (hok t.params (joinParams_eq_ok.2 ⟨hsorted, hagree⟩)).trans ht.symm

theorem comesTo_of_unify (h : (unify a b).isMismatch = false) : ComesTo a b (unify a b) := by
  obtain ⟨ha, hb⟩ := not_mismatch_of_unify h
  rcases isUnresolved_or_isConcrete ha with ha | ha
  · exact .left ha hb (unify_left_open ha)
  rcases isUnresolved_or_isConcrete hb with hb | hb
  · exact .right ha hb (unify_right_open ha hb)
  have hab := alike_of_unify ha hb h
  obtain ⟨hok, herror⟩ := unify_joined ha hb hab.name hab.module
  cases hjoin : joinParams a b (unifyParams a.params) with
  | ok fields =>
    obtain ⟨hsorted, hagree⟩ := joinParams_eq_ok.1 hjoin
    rw [hok fields hjoin]
    exact .both hab rfl hsorted hagree
  | error failure =>
    obtain ⟨r, rfl⟩ := joinParams_error hjoin
    rw [herror _ hjoin] at h
    cases h

/-- Two types come to an open one only if both are open. -/
theorem isUnresolved_unify (h : (unify a b).isMismatch = false) :
    (unify a b).isUnresolved ↔ a.isUnresolved ∧ b.isUnresolved := by
  cases comesTo_of_unify h with
  | left ha _ ht => simp [ht, ha]
  | right ha _ ht => simp [ht, not_open_of_concrete ha]
  | both hab ht _ _ =>
    simp [not_open_of_concrete (hab.of_params ht).right, not_open_of_concrete hab.left]

/-- Types of one name unify if their parameters fit at all keys. -/
theorem Alike.unify_iff (h : Alike a b) :
    (unify a b).isMismatch = false ↔ ∀ key, FitAt a b key := by
  constructor
  · intro hm key
    cases comesTo_of_unify hm with
    | left hu _ _ => exact absurd hu (not_open_of_concrete h.left)
    | right _ hu _ => exact absurd hu (not_open_of_concrete h.right)
    | both _ _ _ hagree => exact exists_agreeAt_iff.1 ⟨_, hagree key⟩
  intro hfit
  obtain ⟨hok, -⟩ := unify_joined h.left h.right h.name h.module
  cases hjoin : joinParams a b (unifyParams a.params) with
  | ok fields =>
    rw [hok fields hjoin]
    exact (isConcrete_iff.1 h.left).2
  | error failure =>
    rw [joinParams_eq] at hjoin
    obtain ⟨key, hkey, hjoin⟩ := exists_of_mapM_error hjoin
    have hside := Fields.mem_unionNames.1 hkey
    obtain ⟨t, ht⟩ := exists_agreeAt_iff.2 (hfit key)
    obtain ⟨t, rfl⟩ := Option.isSome_iff_exists.1 (ht.isSome_iff.2 hside)
    cases (error_of_named hjoin).symm.trans ((joinAt_eq_ok hside).2 ht)

end Dataflow.ValueType
