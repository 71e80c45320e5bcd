import Dataflow.Proofs.ValueType.Narrowing

/-! Whether a type accepts the value that stands for a missing one.

The empty object has no fields, while a type accepts an object only with all of its fields. So a
type accepts its empty value unless that has to be an object with fields, or a pair of one
(`Demanding`). Within an array nothing has to be, since the empty array has no items. -/

namespace Dataflow.ValueType

variable {kinds : TypeKinds} {t : ValueType} {fields : List (String × ValueType)}

/-- The empty value would have to be an object with fields, or a pair of one. -/
inductive Demanding : ValueType → Prop
  | object {fields : List (String × ValueType)} : fields ≠ [] → Demanding (object fields)
  | pair {t : ValueType} : Demanding t → Demanding (pair t)

namespace Demanding

theorem name (h : Demanding t) : t.name = "Object" ∨ t.name = "Pair" := by
  cases h with
  | object => exact .inl rfl
  | pair => exact .inr rfl

theorem object_iff : Demanding (ValueType.object fields) ↔ fields ≠ [] := by
  refine ⟨fun h => ?_, .object⟩
  generalize hu : ValueType.object fields = u at h
  cases h with
  | object hfields =>
    obtain rfl := congrArg params hu
    exact hfields
  | pair =>
    exact absurd (congrArg ValueType.name hu) (by simp [ValueType.object, ValueType.pair, core])

theorem pair_iff : Demanding (ValueType.pair t) ↔ Demanding t := by
  refine ⟨fun h => ?_, .pair⟩
  generalize hu : ValueType.pair t = u at h
  cases h with
  | object =>
    exact absurd (congrArg ValueType.name hu) (by simp [ValueType.object, ValueType.pair, core])
  | pair h =>
    obtain ⟨-, rfl⟩ := Prod.mk.inj (List.cons.inj (congrArg params hu)).1
    exact h

end Demanding

/-! ## Empty values -/

/-- The names of the module `Core` stand for what they are meant to. -/
structure CoreKinds (kinds : TypeKinds) : Prop extends Cored kinds where
  string : kinds "Core" "String" = some .string
  number : kinds "Core" "Number" = some .number
  boolean : kinds "Core" "Boolean" = some .boolean
  array : kinds "Core" "Array" = some .array
  object : kinds "Core" "Object" = some .object
  pair : kinds "Core" "Pair" = some .pair

theorem coreKinds_of_core {c : Catalogue} (h : c.modules["Core"]? = some .core) :
    CoreKinds c.kinds := by
  refine ⟨cored_of_core h, ?_, ?_, ?_, ?_, ?_, ?_⟩ <;> rw [Catalogue.kinds, h] <;> rfl

variable (hk : CoreKinds kinds)

include hk

theorem emptyValue_object : (object fields).emptyValue kinds = .object [] := by
  rw [object, core, emptyValue, hk.object]

theorem emptyValue_pair : (pair t).emptyValue kinds = .pair "" (t.emptyValue kinds) := by
  rw [pair, core, emptyValue, hk.pair]
  simp only [emptyParam, BEq.rfl, if_true]

theorem accepts_object (v : List (String × Value)) :
    accepts kinds (object fields) (.object v) = acceptsFields kinds fields v := by
  simp only [object, core, accepts, hk.object]

theorem accepts_pair (key : String) (v : Value) :
    accepts kinds (pair t) (.pair key v) ↔ accepts kinds t v := by
  simp only [pair, core, accepts, hk.pair]
  rw [acceptsAs_iff hk.toCored]
  simp

/-- An object without fields is enough only where no field is called for. -/
theorem accepts_emptyValue_object :
    accepts kinds (object fields) ((object fields).emptyValue kinds) ↔ fields = [] := by
  rw [emptyValue_object hk, accepts_object hk, acceptsFields_iff hk.toCored,
    List.eq_nil_iff_forall_not_mem]
  simp

theorem accepts_emptyValue_pair :
    accepts kinds (pair t) ((pair t).emptyValue kinds) ↔ accepts kinds t (t.emptyValue kinds) := by
  rw [emptyValue_pair hk, accepts_pair hk]

/-- A type accepts its empty value, unless that would have to be an object with fields, or a pair of
one. The induction is on how the type is made; only a pair hands it on to its parameter
(`accepts_emptyValue_pair`). -/
theorem Faultless.accepts_emptyValue (ht : Faultless t) :
    accepts kinds t (t.emptyValue kinds) ↔ ¬t.Demanding := by
  have leaf {t : ValueType} (h : accepts kinds t (t.emptyValue kinds))
      (hn : t.name ≠ "Object" ∧ t.name ≠ "Pair") :
      accepts kinds t (t.emptyValue kinds) ↔ ¬t.Demanding :=
    ⟨fun _ hd => hd.name.elim hn.1 hn.2, fun _ => h⟩
  induction ht with
  | unresolved => exact leaf (accepts_of_open hk.toCored rfl _) (by decide)
  | string =>
    exact leaf (by simp [ValueType.string, core, emptyValue, accepts, hk.string]) (by decide)
  | number =>
    exact leaf (by simp [ValueType.number, core, emptyValue, accepts, hk.number]) (by decide)
  | boolean =>
    exact leaf (by simp [ValueType.boolean, core, emptyValue, accepts, hk.boolean]) (by decide)
  | array =>
    exact leaf (by simp [ValueType.array, core, emptyValue, accepts, hk.array])
      (by simp [ValueType.array, core])
  | pair _ ih =>
    exact (accepts_emptyValue_pair hk).trans (ih.trans (not_congr Demanding.pair_iff.symm))
  | object =>
    exact (accepts_emptyValue_object hk).trans (not_iff_comm.1 Demanding.object_iff.symm).symm

end Dataflow.ValueType
