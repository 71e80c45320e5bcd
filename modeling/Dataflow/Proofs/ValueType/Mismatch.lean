import Dataflow.Proofs.ValueType.Parts

/-! Where a mismatch within a type comes from that others unify to.

Unification keeps, drops or fills in parameters, and fails as a whole where two of them do not
unify. So a mismatch within what two types come to was within one of them, or else it is all that
they come to (`HasMismatch.of_unify`). And a mismatch within one of them is within what they come to
(`HasMismatch.unify`). This holds of all types, not only of those made by the constructors. -/

namespace Dataflow.ValueType

variable {a b t u : ValueType} {key : String} {ts : List ValueType}

theorem not_hasMismatch_unresolved : ¬HasMismatch unresolved := not_hasMismatch_of_leaf rfl rfl

theorem not_hasMismatch_number : ¬HasMismatch number := not_hasMismatch_of_leaf rfl rfl

theorem hasMismatch_pair : HasMismatch (pair t) ↔ HasMismatch t :=
  (hasMismatch_iff rfl).trans (by simp [pair, core])

/-- What is in an array that joins to another is no mismatch if what is in that one is none. -/
theorem items_not_mismatch (h : Joins (array a) b (array t)) (hm : t.isMismatch = false) :
    a.isMismatch = false := by
  generalize hx : array a = x at h
  generalize hy : array t = y at h
  cases h with
  | right _ _ => exact array_inj.1 (hx.trans hy.symm) ▸ hm
  | array h => exact array_inj.1 hx ▸ h.left_not_mismatch
  | _ => exact absurd (congrArg name hx) (by simp)

/-! ## Mismatches within -/

/-- A mismatch within what two types come to is all of it, or else it was within one of them. -/
theorem HasMismatch.of_unify (h : HasMismatch (unify a b)) (hm : (unify a b).isMismatch = false) :
    HasMismatch a ∨ HasMismatch b := by
  induction a using params_induction generalizing b with
  | step a ih =>
    generalize ht : unify a b = t at h
    cases ht ▸ comesTo_of_unify hm with
    | left _ _ ht => exact .inr (ht ▸ h)
    | right _ _ ht => exact .inl (ht ▸ h)
    | both _ _ hsorted hagree =>
      obtain ⟨⟨key, u⟩, hmem, hu⟩ := (hasMismatch_iff (ht ▸ hm)).1 h
      have hkey : t.param? key = some u := hsorted.lookup_iff.2 hmem
      rcases (hkey ▸ hagree key).of_some with ⟨x, y, hx, hy, hm, rfl⟩ | hx | hy
      · have hx := mem_params_of_param? hx
        exact (ih hx hu hm).imp (.param hx) (.param (mem_params_of_param? hy))
      · exact .inl (.param (mem_params_of_param? hx) hu)
      · exact .inr (.param (mem_params_of_param? hy) hu)

theorem HasMismatch.param_of_concrete (h : HasMismatch a) (hc : a.isConcrete) :
    ∃ key x, (key, x) ∈ a.params ∧ HasMismatch x := by
  obtain ⟨⟨key, x⟩, hx, hm⟩ := (hasMismatch_iff (isConcrete_iff.1 hc).2).1 h
  exact ⟨key, x, hx, hm⟩

theorem not_hasMismatch_of_open (hu : a.isUnresolved) (h : Bare a) : ¬HasMismatch a :=
  not_hasMismatch_of_leaf (isMismatch_of_isUnresolved hu) (h a (.self a) hu)

/-- A mismatch within one of two types is within what they come to. -/
theorem HasMismatch.unify (ha : Ordered a) (hb : Ordered b) (hba : Bare a) (hbb : Bare b)
    (h : HasMismatch a ∨ HasMismatch b) : HasMismatch (a.unify b) := by
  induction a using params_induction generalizing b with
  | step a ih =>
    cases hm : (a.unify b).isMismatch with
    | true => exact .here hm
    | false =>
    generalize ht : a.unify b = t
    cases ht ▸ comesTo_of_unify hm with
    -- nothing is within an open type, so that nothing is lost with it
    | left hua _ ht => exact ht ▸ h.resolve_left (not_hasMismatch_of_open hua hba)
    | right _ hub ht => exact ht ▸ h.resolve_right (not_hasMismatch_of_open hub hbb)
    | both hab _ _ hagree =>
      rcases h with h | h
      · obtain ⟨key, u, hu, h⟩ := h.param_of_concrete hab.left
        rcases (hagree key).of_left (ha.param?_iff.2 hu) with ⟨y, hy, -, ht⟩ | ht
        · have hy := mem_params_of_param? hy
          exact .param (mem_params_of_param? ht)
            (ih hu (ha.param hu) (hb.param hy) (hba.param hu) (hbb.param hy) (.inl h))
        · exact .param (mem_params_of_param? ht) h
      · obtain ⟨key, u, hu, h⟩ := h.param_of_concrete hab.right
        rcases (hagree key).of_right (hb.param?_iff.2 hu) with ⟨x, hx, -, ht⟩ | ht
        · have hx := mem_params_of_param? hx
          exact .param (mem_params_of_param? ht)
            (ih hx (ha.param hx) (hb.param hu) (hba.param hx) (hbb.param hu) (.inr h))
        · exact .param (mem_params_of_param? ht) h

theorem HasMismatch.of_unifyAll (hr : ∀ t ∈ ts, Regular t) (h : HasMismatch (unifyAll ts))
    (hm : (unifyAll ts).isMismatch = false) : ∃ t ∈ ts, HasMismatch t := by
  induction ts using List.reverseRecOn with
  | nil => exact absurd h not_hasMismatch_unresolved
  | append_singleton ts t ih =>
    have hts : ∀ x ∈ ts, Regular x := fun x hx => hr x (List.mem_append_left _ hx)
    rw [unifyAll_concat] at h hm
    rcases h.of_unify hm with h | h
    · obtain ⟨x, hx, h⟩ := ih hts h (not_mismatch_of_unify hm).1
      exact ⟨x, List.mem_append_left _ hx, h⟩
    · exact ⟨t, by simp, h⟩

end Dataflow.ValueType
