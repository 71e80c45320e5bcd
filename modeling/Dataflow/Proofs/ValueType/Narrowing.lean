import Dataflow.Catalogue
import Dataflow.Proofs.Tables
import Dataflow.Proofs.ValueType.Laws

/-! What two types come to accepts no more than either of them.

Where the module `Core` is known, an open type accepts all values, so that all parameters can be
looked at alike. Then a type accepts the less the more parameters it has, and the less these accept
(`accepts_of_params`); and what two types come to has the parameters of both, each no less strict
than it was.

A kind of type that another module brings along has to keep to that (`TypeKinds.StructuralAt`): for
`ValueType.unify` a type without parameters is open, so that it goes together with any of its name,
and what they come to has the parameters of the other one. That it accepts no more than the open one
is then up to the test. -/

namespace Dataflow

/-- A test is one of structure: it takes each parameter for a demand, so that a value that passes
still passes when some are left out or become less strict. Nothing else of a type counts but its
name. -/
def TypeDefinition.Structural (d : TypeDefinition) : Prop :=
  ∀ {a t : ValueType} {demands demands' : List (String × (Value → Bool))} {v : Value},
    a.name = t.name → a.module = t.module →
    (∀ {key f}, demands.lookup key = some f →
      ∃ f', demands'.lookup key = some f' ∧ ∀ v, f' v → f v) →
    d.test t demands' v → d.test a demands v

/-- If the kind of a type is one that a module brings along, its test is one of structure. -/
def TypeKinds.StructuralAt (kinds : TypeKinds) (t : ValueType) : Prop :=
  ∀ {d}, kinds t.module t.name = some (.foreign d) → d.Structural

namespace Catalogue

theorem structural_empty (t : ValueType) : empty.kinds.StructuralAt t := by
  intro d hd
  rw [kinds, empty, Std.ExtTreeMap.getElem?_empty] at hd
  cases hd

/-- A module keeps it so that has no kinds of types of its own but such with tests of structure. -/
theorem structural_register {c : Catalogue} {t : ValueType} (hc : c.kinds.StructuralAt t)
    (name : String) (nodes : List (String × NodeDefinition)) {types : List (String × TypeKind)}
    (htypes : ∀ {type d}, (type, .foreign d) ∈ types → d.Structural) :
    (c.register name (.ofLists nodes types)).kinds.StructuralAt t := by
  intro d hd
  rw [kinds, register, Tables.getElem?_insert] at hd
  split at hd
  · exact htypes (Tables.mem_of_getElem?_ofList hd)
  · exact hc hd

theorem structural_builtin (t : ValueType) : builtin.kinds.StructuralAt t := by
  refine structural_register (structural_register (structural_register (structural_empty t) _ _ ?_)
    _ _ ?_) _ _ ?_ <;> simp

end Catalogue

namespace ValueType

variable {kinds : TypeKinds} {a b t x : ValueType} {key : String} {v : Value}

/-- The two special names stand for what they are meant to. -/
structure Cored (kinds : TypeKinds) : Prop where
  unresolved : kinds "Core" "Unresolved" = some .unresolved
  mismatch : kinds "Core" "Mismatch" = some .mismatch

theorem cored_of_core {c : Catalogue} (h : c.modules["Core"]? = some .core) : Cored c.kinds := by
  constructor <;> rw [Catalogue.kinds, h] <;> rfl

theorem accepts_eq (t : ValueType) (v : Value) : accepts kinds t v =
    match kinds t.module t.name, v with
    | some .unresolved, _ => true
    | some .string, .string _ => true
    | some .number, .number _ => true
    | some .boolean, .boolean _ => true
    | some .array, .array items => items.all (acceptsAs kinds "items" t.params)
    | some .object, .object fields => acceptsFields kinds t.params fields
    | some .pair, .pair _ value => acceptsAs kinds "value" t.params value
    | some (.foreign d), v => d.test t (tests kinds t.params) v
    | _, _ => false := by
  cases t
  unfold accepts
  rfl

theorem lookup_tests (params : List (String × ValueType)) (key : String) :
    (tests kinds params).lookup key = (params.lookup key).map (accepts kinds) := by
  induction params with
  | nil => rfl
  | cons kt params ih =>
    rw [tests, List.lookup_cons, List.lookup_cons, ih]
    cases key == kt.1 <;> rfl

theorem core_builtin : Catalogue.builtin.modules["Core"]? = some .core := by
  simp only [Catalogue.builtin, Catalogue.register, Tables.getElem?_insert, String.reduceEq,
    if_true, if_false]

variable (hk : Cored kinds)

include hk

theorem accepts_of_open (h : a.isUnresolved) (v : Value) : accepts kinds a v := by
  obtain ⟨hn, hm⟩ := eq_of_isUnresolved h
  cases a
  cases hn
  cases hm
  simp only [accepts, hk.unresolved]

theorem not_accepts_of_mismatch (h : a.isMismatch) (v : Value) : accepts kinds a v = false := by
  obtain ⟨hm, hn⟩ : a.module = "Core" ∧ a.name = "Mismatch" := by
    simpa [isMismatch, isCore] using h
  cases a
  cases hn
  cases hm
  simp only [accepts, hk.mismatch]

theorem open_or_accepts : (x.isUnresolved || accepts kinds x v) ↔ accepts kinds x v := by
  rw [Bool.or_eq_true]
  exact ⟨fun h => h.elim (accepts_of_open hk · v) id, .inr⟩

theorem acceptsAs_iff {params : List (String × ValueType)} :
    acceptsAs kinds key params v ↔ ∀ x, params.lookup key = some x → accepts kinds x v := by
  induction params with
  | nil => simp [acceptsAs]
  | cons kt params ih =>
    obtain ⟨k, t⟩ := kt
    by_cases hkey : k = key
    · subst hkey
      rw [acceptsAs, if_pos (by simp), open_or_accepts hk, List.lookup_cons_self]
      simp
    · rw [acceptsAs, if_neg (by simpa using hkey), ih, List.lookup_cons]
      simp [beq_eq_false_iff_ne.2 (Ne.symm hkey)]

theorem acceptsFields_iff {params : List (String × ValueType)} {fields : List (String × Value)} :
    acceptsFields kinds params fields ↔
      ∀ kt ∈ params, ∃ v, fields.lookup kt.1 = some v ∧ accepts kinds kt.2 v := by
  induction params with
  | nil => simp [acceptsFields]
  | cons kt params ih =>
    obtain ⟨k, t⟩ := kt
    rw [acceptsFields, Bool.and_eq_true, ih, List.forall_mem_cons]
    refine and_congr_left fun _ => ?_
    cases fields.lookup k with
    | none => simp
    | some v => simpa using open_or_accepts hk

/-- A type accepts what another one of its name accepts, if that one has all of its parameters and
these accept no more. -/
theorem accepts_of_params (hs : kinds.StructuralAt a) (hn : a.name = t.name)
    (hm : a.module = t.module) (ha : Ordered a) (hparams : ∀ {key x}, a.param? key = some x →
      ∃ z, t.param? key = some z ∧ ∀ v, accepts kinds z v → accepts kinds x v)
    (h : accepts kinds t v) : accepts kinds a v := by
  have hitem {key : String} {v : Value} (h : acceptsAs kinds key t.params v) :
      acceptsAs kinds key a.params v := by
    rw [acceptsAs_iff hk] at h ⊢
    intro x hx
    obtain ⟨z, hz, hzx⟩ := hparams hx
    exact hzx v (h z hz)
  have hfields {fields : List (String × Value)} (h : acceptsFields kinds t.params fields) :
      acceptsFields kinds a.params fields := by
    rw [acceptsFields_iff hk] at h ⊢
    rintro ⟨key, x⟩ hx
    obtain ⟨z, hz, hzx⟩ := hparams (ha.param?_iff.2 hx)
    obtain ⟨v, hv, hzv⟩ := h _ (mem_params_of_param? hz)
    exact ⟨v, hv, hzx v hzv⟩
  have htests {key : String} {f : Value → Bool} (hf : (tests kinds a.params).lookup key = some f) :
      ∃ f', (tests kinds t.params).lookup key = some f' ∧ ∀ v, f' v → f v := by
    rw [lookup_tests] at hf ⊢
    obtain ⟨x, hx, rfl⟩ := Option.map_eq_some_iff.1 hf
    obtain ⟨z, hz, hzx⟩ := hparams hx
    exact ⟨_, Option.map_eq_some_iff.2 ⟨z, hz, rfl⟩, hzx⟩
  rw [accepts_eq] at h ⊢
  rw [hn, hm]
  -- the kind and the value are the same on both sides
  split at h
  next => rfl
  next => rfl
  next => rfl
  next => rfl
  next items _ => exact List.all_eq_true.2 fun v hv => hitem (List.all_eq_true.1 h v hv)
  next => exact hfields h
  next => exact hitem h
  next d hd =>
    rw [← hm, ← hn] at hd
    exact hs hd hn hm htests h
  next => cases h

/-- What two types come to accepts only what both of them accept. The induction is on the first
type: a parameter of what they come to is one of theirs or what two of them come to (`AgreeAt`), and
so accepts no more than theirs; the rest is `accepts_of_params`. -/
theorem accepts_of_unify (hs : ∀ t, Part t a → kinds.StructuralAt t) (ha : Ordered a)
    (hb : Ordered b) (h : accepts kinds (unify a b) v) :
    accepts kinds a v ∧ accepts kinds b v := by
  induction a using params_induction generalizing b v with
  | step a ih =>
    cases hm : (unify a b).isMismatch with
    | true => exact absurd h (by simp [not_accepts_of_mismatch hk hm])
    | false =>
    generalize ht : unify a b = t at h
    cases ht ▸ comesTo_of_unify hm with
    | left hua _ ht => exact ⟨accepts_of_open hk hua v, ht ▸ h⟩
    | right _ hub ht => exact ⟨ht ▸ h, accepts_of_open hk hub v⟩
    | both hab ht _ hagree =>
      have hat := hab.of_params ht
      have hbt := hab.symm.trans hat
      have hsa : kinds.StructuralAt a := hs a (.self a)
      have hsb : kinds.StructuralAt b := by
        rwa [TypeKinds.StructuralAt, ← hab.name, ← hab.module]
      have hboth {key x y} (hx : a.param? key = some x) (hy : b.param? key = some y) {v : Value}
          (h : accepts kinds (unify x y) v) : accepts kinds x v ∧ accepts kinds y v := by
        have hx := mem_params_of_param? hx
        exact ih hx (fun t ht => hs t (.param hx ht)) (ha.param hx)
          (hb.param (mem_params_of_param? hy)) h
      refine ⟨accepts_of_params hk hsa hat.name hat.module ha (fun {key x} hx => ?_) h,
        accepts_of_params hk hsb hbt.name hbt.module hb (fun {key y} hy => ?_) h⟩
      · rcases (hagree key).of_left hx with ⟨y, hy, -, ht⟩ | ht
        · exact ⟨_, ht, fun v h => (hboth hx hy h).1⟩
        · exact ⟨x, ht, fun _ => id⟩
      · rcases (hagree key).of_right hy with ⟨x, hx, -, ht⟩ | ht
        · exact ⟨_, ht, fun v h => (hboth hx hy h).2⟩
        · exact ⟨y, ht, fun _ => id⟩

omit hk

/-- A kind of type that accepts nothing besides what its parameter accepts. -/
def optional : TypeDefinition where
  create params := ⟨"Optional", "Ext", "Optional", params, none⟩
  emptyValue _ _ := .nothing
  test _ demands v := v.isNothing || (demands.lookup "value").all (· v)

theorem optional_structural : optional.Structural := by
  intro a t demands demands' v _ _ hdemands h
  simp only [optional, Bool.or_eq_true] at h ⊢
  refine h.imp_right fun h => ?_
  cases hf : demands.lookup "value" with
  | none => rfl
  | some f =>
    obtain ⟨f', hf', hff⟩ := hdemands hf
    rw [hf'] at h
    exact hff v h

/-- The built-in modules and one that brings a kind of type along. -/
def extended : Catalogue :=
  Catalogue.builtin.register "Ext" (.ofLists [] [("Optional", .foreign optional)])

end ValueType

end Dataflow
