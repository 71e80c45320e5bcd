import Dataflow.Proofs.ValueType.Shapes
import Dataflow.ValueType.Kind

/-! Values of which a type tells the kind (`Conforms`).

To what is left open conforms nothing but the missing value. So a value conforms still when open
parts of the type are filled in (`Conforms.joins`), and to the type that several types come to
conforms all that conforms to one of them (`Conforms.unifyAll`). -/

namespace Dataflow

/-- The value is missing, or else it is of the kind of the type, and so is all that it consists of.
The fields of an object do not matter. -/
inductive Conforms : Value → ValueType → Prop
  | nothing (t : ValueType) : Conforms .nothing t
  | string (s : String) : Conforms (.string s) .string
  | number (x : Float) : Conforms (.number x) .number
  | boolean (b : Bool) : Conforms (.boolean b) .boolean
  | array {items : List Value} {t : ValueType} : (∀ v ∈ items, Conforms v t) →
    Conforms (.array items) (.array t)
  | pair (key : String) {v : Value} {t : ValueType} : Conforms v t →
    Conforms (.pair key v) (.pair t)
  | object (fields : List (String × Value)) (types : List (String × ValueType)) :
    Conforms (.object fields) (.object types)

namespace ValueType

/-- The type is a mismatch, or one is somewhere in its parameters. -/
inductive HasMismatch : ValueType → Prop
  | here {t : ValueType} : t.isMismatch → HasMismatch t
  | param {t u : ValueType} {key : String} : (key, u) ∈ t.params → HasMismatch u → HasMismatch t

/-- Made by the constructors, with no mismatch but maybe in the fields of an object. -/
inductive Whole : ValueType → Prop
  | unresolved : Whole unresolved
  | string : Whole string
  | number : Whole number
  | boolean : Whole boolean
  | array {t : ValueType} : Whole t → Whole (array t)
  | pair {t : ValueType} : Whole t → Whole (pair t)
  | object (fields : List (String × ValueType)) : Whole (object fields)

variable {a b t : ValueType} {ts : List ValueType}

theorem hasMismatch_iff (hm : t.isMismatch = false) :
    HasMismatch t ↔ ∃ kt ∈ t.params, HasMismatch kt.2 := by
  constructor
  · rintro (h | ⟨hmem, hu⟩)
    · exact absurd h (by simp [hm])
    · exact ⟨_, hmem, hu⟩
  · rintro ⟨kt, hmem, hu⟩
    exact .param hmem hu

theorem not_hasMismatch_of_leaf (hm : t.isMismatch = false) (hp : t.params = []) :
    ¬HasMismatch t := by
  rw [hasMismatch_iff hm, hp]
  simp

theorem not_hasMismatch_string : ¬HasMismatch string := not_hasMismatch_of_leaf rfl rfl

theorem hasMismatch_array : HasMismatch (array t) ↔ HasMismatch t :=
  (hasMismatch_iff rfl).trans (by simp [array, core])

theorem Regular.whole (h : Regular t) (hm : ¬HasMismatch t) : Whole t := by
  induction h with
  | unresolved => exact .unresolved
  | mismatch r => exact absurd (.here rfl) hm
  | string => exact .string
  | number => exact .number
  | boolean => exact .boolean
  | array _ ih => exact .array (ih fun hu => hm (.param List.mem_cons_self hu))
  | pair _ ih => exact .pair (ih fun hu => hm (.param List.mem_cons_self hu))
  | object fields => exact .object fields

theorem Whole.isMismatch (h : Whole t) : t.isMismatch = false := by
  cases h <;> rfl

theorem not_whole_mismatch (r : String) : ¬Whole (mismatch r) :=
  fun h => Bool.false_ne_true h.isMismatch.symm

theorem whole_array (h : Whole (array t)) : Whole t := by
  generalize hu : array t = u at h
  cases h with
  | array h => exact array_inj.1 hu ▸ h
  | _ => simpa using congrArg name hu

theorem whole_pair (h : Whole (pair t)) : Whole t := by
  generalize hu : pair t = u at h
  cases h with
  | pair h => exact pair_inj.1 hu ▸ h
  | _ => simpa using congrArg name hu

/-- What joins to a whole type is whole. -/
theorem Joins.whole (h : Joins a b t) (ht : Whole t) : Whole a := by
  induction h with
  | left _ _ => exact .unresolved
  | right _ _ => exact ht
  | string => exact ht
  | number => exact ht
  | boolean => exact ht
  | array _ ih => exact .array (ih (whole_array ht))
  | pair _ ih => exact .pair (ih (whole_pair ht))
  | object f g h => exact .object f

end ValueType

open ValueType

variable {v : Value} {a b t : ValueType} {ts : List ValueType}

/-! ## What conforms to a constructor -/

theorem conforms_unresolved (h : Conforms v unresolved) : v = .nothing := by
  generalize hu : unresolved = u at h
  cases h with
  | nothing => rfl
  | _ => simpa using congrArg name hu

theorem conforms_array (h : Conforms v (.array t)) : ∀ w ∈ v.items, Conforms w t := by
  generalize hu : ValueType.array t = u at h
  cases h with
  | nothing => exact List.forall_mem_nil _
  | array hitems => exact array_inj.1 hu ▸ hitems
  | _ => simpa using congrArg name hu

/-! ## Types that are filled in -/

/-- What conforms to a type conforms to all that it joins to. -/
theorem Conforms.joins (h : Conforms v a) (hj : Joins a b t) : Conforms v t := by
  induction hj generalizing v with
  | left _ _ => exact conforms_unresolved h ▸ .nothing _
  | right _ _ => exact h
  | string => exact h
  | number => exact h
  | boolean => exact h
  | @array x y t _ ih =>
    generalize hu : ValueType.array x = u at h
    cases h with
    | nothing => exact .nothing _
    | array hitems => exact .array fun w hw => ih (array_inj.1 hu ▸ hitems w hw)
    | _ => simpa using congrArg name hu
  | @pair x y t _ ih =>
    generalize hu : ValueType.pair x = u at h
    cases h with
    | nothing => exact .nothing _
    | pair key hv => exact .pair key (ih (pair_inj.1 hu ▸ hv))
    | _ => simpa using congrArg name hu
  | object f g types =>
    generalize hu : ValueType.object f = u at h
    cases h with
    | nothing => exact .nothing _
    | object fields => exact .object fields types
    | _ => simpa using congrArg name hu

/-- To what many types come to conforms what conforms to one of them. -/
theorem Conforms.unifyAll (hr : ∀ x ∈ ts, Regular x) (hw : Whole (unifyAll ts)) (ht : t ∈ ts) :
    Whole t ∧ (Conforms v t → Conforms v (.unifyAll ts)) :=
  unifyAll_induct (motive := fun x y => Whole y → Whole x ∧ (Conforms v x → Conforms v y))
    (fun hj => ⟨fun ht => ⟨hj.whole ht, fun h => h.joins hj⟩,
      fun ht => ⟨hj.symm.whole ht, fun h => h.joins hj.symm⟩⟩)
    (fun hxy hyt ht => ⟨(hxy (hyt ht).1).1, fun h => (hyt ht).2 ((hxy (hyt ht).1).2 h)⟩)
    hr hw.isMismatch ht hw

/-! ## Nesting -/

/-- What is left of a value when one goes from first element to first element. -/
def Value.front : Value → Value
  | .array (v :: _) => v.front
  | v => v

theorem ValueType.arrayDepth_array (t : ValueType) : (array t).arrayDepth = t.arrayDepth + 1 := by
  rw [array, core, arrayDepth]
  simp [itemsDepth, Nat.add_comm]

/-- Arrays are nested in a value no deeper than in its type, and just as deep if there is an
innermost first element. -/
theorem Conforms.arrayDepth (h : Conforms v t) : v.arrayDepth ≤ t.arrayDepth ∧
    (v.front ≠ .nothing → v.front ≠ .array [] → v.arrayDepth = t.arrayDepth) := by
  induction h with
  | nothing t => exact ⟨Nat.zero_le _, fun h => absurd rfl h⟩
  | @array items t _ ih =>
    rw [arrayDepth_array]
    cases items with
    | nil => exact ⟨Nat.le_add_left .., fun _ h => absurd rfl h⟩
    | cons v items =>
      obtain ⟨hle, heq⟩ := ih v List.mem_cons_self
      rw [Value.arrayDepth, Value.front]
      exact ⟨by omega, fun hn ha => by rw [heq hn ha, Nat.add_comm]⟩
  | _ => exact ⟨Nat.zero_le _, fun _ _ => rfl⟩

end Dataflow
