import Dataflow.Proofs.ValueType.Parts

/-! Where within a type a mismatch is.

A mismatch within a type stands at the end of a path of parameters. With `ComesTo` the paths are
kept: what two types come to has a mismatch where one of them has it, and nowhere else. Two types
with a mismatch at one place do not unify. So a type unifies with what came of it and others only if
it is `Clean`; and if it is, it does. -/

namespace Dataflow.ValueType

variable {a b t x : ValueType} {ts : List ValueType} {key : String} {path : List String}

/-- A mismatch stands at the end of the path. Nothing is looked for within an open type. -/
def SpoiltAt : List String → ValueType → Prop
  | [], t => t.isMismatch
  | key :: path, t => t.isUnresolved = false ∧ ∃ u, t.param? key = some u ∧ SpoiltAt path u

/-- No path leads to a mismatch. -/
def Clean (t : ValueType) : Prop := ∀ path, ¬SpoiltAt path t

theorem Clean.isMismatch (h : Clean t) : t.isMismatch = false := Bool.eq_false_iff.2 (h [])

theorem Clean.param (h : Clean t) (hu : t.isUnresolved = false) (hx : t.param? key = some x) :
    Clean x := fun path hs => h (key :: path) ⟨hu, x, hx, hs⟩

theorem clean_of_params (hm : t.isMismatch = false)
    (h : ∀ key x, t.param? key = some x → Clean x) : Clean t
  | [], hs => absurd hs (by simp [SpoiltAt, hm])
  | _ :: path, ⟨_, x, hx, hs⟩ => h _ x hx path hs

theorem SpoiltAt.hasMismatch (h : SpoiltAt path t) : HasMismatch t := by
  induction path generalizing t with
  | nil => exact .here h
  | cons key path ih =>
    obtain ⟨-, x, hx, h⟩ := h
    exact .param (mem_params_of_param? hx) (ih h)

theorem clean_of_not_hasMismatch (h : ¬HasMismatch t) : Clean t := fun _ hs => h hs.hasMismatch

/-! ## Types made by the constructors -/

theorem clean_of_leaf (hm : t.isMismatch = false) (hp : t.params = []) : Clean t :=
  clean_of_params hm fun key x hx => by simp [param?, hp] at hx

theorem clean_unresolved : Clean unresolved := clean_of_leaf rfl rfl

theorem clean_number : Clean number := clean_of_leaf rfl rfl

theorem param?_array : (array t).param? key = if key = "items" then some t else none := by
  rw [param?, array, core, List.lookup_cons, List.lookup_nil]
  split <;> simp_all

theorem param?_pair : (pair t).param? key = if key = "value" then some t else none := by
  rw [param?, pair, core, List.lookup_cons, List.lookup_nil]
  split <;> simp_all

theorem clean_array : Clean (array t) ↔ Clean t := by
  refine ⟨fun h => h.param rfl (param?_array.trans (if_pos rfl)),
    fun h => clean_of_params rfl fun key x hx => ?_⟩
  rw [param?_array] at hx
  split at hx
  · exact Option.some.inj hx ▸ h
  · cases hx

theorem clean_pair : Clean (pair t) ↔ Clean t := by
  refine ⟨fun h => h.param rfl (param?_pair.trans (if_pos rfl)),
    fun h => clean_of_params rfl fun key x hx => ?_⟩
  rw [param?_pair] at hx
  split at hx
  · exact Option.some.inj hx ▸ h
  · cases hx

/-! ## What two types come to -/

theorem ComesTo.not_mismatch (h : ComesTo a b t) : a.isMismatch = false ∧ b.isMismatch = false :=
  not_mismatch_of_unify (h.unify_eq.symm ▸ h.isMismatch)

/-- A mismatch of the first type stays at its place. -/
theorem SpoiltAt.left (h : SpoiltAt path a) (hc : ComesTo a b t) : SpoiltAt path t := by
  induction path generalizing a b t with
  | nil => exact absurd h (by simp [SpoiltAt, hc.not_mismatch])
  | cons key path ih =>
    obtain ⟨hu, x, hx, h⟩ := h
    cases hc with
    | left hua _ _ => cases hu.symm.trans hua
    | right _ _ ht => exact ht ▸ ⟨hu, x, hx, h⟩
    | both hab ht _ hagree =>
      refine ⟨(isConcrete_iff.1 (hab.of_params ht).right).1, ?_⟩
      rcases (hagree key).of_left hx with ⟨y, -, hm, ht⟩ | ht
      · exact ⟨_, ht, ih h (comesTo_of_unify hm)⟩
      · exact ⟨x, ht, h⟩

/-- So does one of the second type. -/
theorem SpoiltAt.right (h : SpoiltAt path b) (hc : ComesTo a b t) : SpoiltAt path t := by
  induction path generalizing a b t with
  | nil => exact absurd h (by simp [SpoiltAt, hc.not_mismatch])
  | cons key path ih =>
    obtain ⟨hu, x, hx, h⟩ := h
    cases hc with
    | left _ _ ht => exact ht ▸ ⟨hu, x, hx, h⟩
    | right _ hub _ => cases hu.symm.trans hub
    | both hab ht _ hagree =>
      refine ⟨(isConcrete_iff.1 (hab.of_params ht).right).1, ?_⟩
      rcases (hagree key).of_right hx with ⟨y, -, hm, ht⟩ | ht
      · exact ⟨_, ht, ih h (comesTo_of_unify hm)⟩
      · exact ⟨x, ht, h⟩

/-- And there are no others. -/
theorem SpoiltAt.of_comesTo (h : SpoiltAt path t) (hc : ComesTo a b t) :
    SpoiltAt path a ∨ SpoiltAt path b := by
  induction path generalizing a b t with
  | nil => exact absurd h (by simp [SpoiltAt, hc.isMismatch])
  | cons key path ih =>
    cases hc with
    | left _ _ ht => exact .inr (ht ▸ h)
    | right _ _ ht => exact .inl (ht ▸ h)
    | both hab ht _ hagree =>
      obtain ⟨-, u, hu, h⟩ := h
      have hua := (isConcrete_iff.1 hab.left).1
      have hub := (isConcrete_iff.1 hab.right).1
      rcases (hu ▸ hagree key).of_some with ⟨x, y, hx, hy, hm, rfl⟩ | hx | hy
      · exact (ih h (comesTo_of_unify hm)).imp (⟨hua, x, hx, ·⟩) (⟨hub, y, hy, ·⟩)
      · exact .inl ⟨hua, u, hx, h⟩
      · exact .inr ⟨hub, u, hy, h⟩

theorem Clean.comesTo (ha : Clean a) (hb : Clean b) (hc : ComesTo a b t) : Clean t :=
  fun path h => (h.of_comesTo hc).elim (ha path) (hb path)

theorem Clean.left (h : Clean t) (hc : ComesTo a b t) : Clean a :=
  fun path hs => h path (hs.left hc)

theorem Clean.right (h : Clean t) (hc : ComesTo a b t) : Clean b :=
  fun path hs => h path (hs.right hc)

/-- A mismatch of one of many types stays at its place. -/
theorem SpoiltAt.unifyAll (h : SpoiltAt path t) (ht : t ∈ ts)
    (hm : (ValueType.unifyAll ts).isMismatch = false) : SpoiltAt path (.unifyAll ts) := by
  induction ts using List.reverseRecOn with
  | nil => cases ht
  | append_singleton ts x ih =>
    rw [unifyAll_concat] at hm ⊢
    have hc := comesTo_of_unify hm
    rcases List.mem_append.1 ht with ht | ht
    · exact (ih ht hc.not_mismatch.1).left hc
    · exact (List.mem_singleton.1 ht ▸ h).right hc

theorem clean_unifyAll (h : ∀ t ∈ ts, Clean t) (hm : (unifyAll ts).isMismatch = false) :
    Clean (unifyAll ts) := by
  induction ts using List.reverseRecOn with
  | nil => exact clean_unresolved
  | append_singleton ts x ih =>
    rw [unifyAll_concat] at hm ⊢
    have hc := comesTo_of_unify hm
    exact (ih (fun t ht => h t (List.mem_append_left _ ht)) hc.not_mismatch.1).comesTo
      (h x (by simp)) hc

/-- Types with a mismatch at one place do not unify. -/
theorem isMismatch_of_spoiltAt (ha : SpoiltAt path a) (hb : SpoiltAt path b) :
    (unify a b).isMismatch := by
  rw [← Bool.not_eq_false]
  intro hm
  induction path generalizing a b with
  | nil => exact absurd ha (by simp [SpoiltAt, not_mismatch_of_unify hm])
  | cons key path ih =>
    obtain ⟨hua, x, hx, ha⟩ := ha
    obtain ⟨hub, y, hy, hb⟩ := hb
    cases comesTo_of_unify hm with
    | left hu _ _ => cases hua.symm.trans hu
    | right _ hu _ => cases hub.symm.trans hu
    | both hab _ _ _ => exact ih ha hb ((hab.unify_iff.1 hm key).both hx hy)

/-! ## Coming to it once more -/

theorem Clean.unify_self (h : Clean a) : (unify a a).isMismatch = false := by
  induction a using params_induction with
  | step a ih =>
    rcases isUnresolved_or_isConcrete h.isMismatch with hu | hc
    · exact (unify_left_open hu).symm ▸ h.isMismatch
    refine (Alike.unify_iff ⟨hc, hc, rfl, rfl⟩).2 fun key => ⟨fun {x y} hx hy => ?_, ?_, ?_⟩
    · cases hx.symm.trans hy
      exact ih (mem_params_of_param? hx) (h.param (isConcrete_iff.1 hc).1 hx)
    · exact fun hx hnone => by cases hx.symm.trans hnone
    · exact fun hnone hx => by cases hx.symm.trans hnone

theorem Clean.unify_unresolved (h : Clean a) : (unify a unresolved).isMismatch = false := by
  rcases isUnresolved_or_isConcrete h.isMismatch with hu | hc
  · rw [unify_left_open hu]
    rfl
  · rw [unify_right_open hc rfl, h.isMismatch]

/-- With what it has come to with another type, a clean type unifies. -/
theorem ComesTo.unifies_left (h : ComesTo a b t) (ha : Clean a) :
    (unify a t).isMismatch = false := by
  induction a using params_induction generalizing b t with
  | step a ih =>
    cases h with
    | left hua hmb ht => exact (unify_left_open hua).symm ▸ ht ▸ hmb
    | right _ _ ht => exact ht ▸ ha.unify_self
    | both hab ht _ hagree =>
      have hu := (isConcrete_iff.1 hab.left).1
      refine (hab.of_params ht).unify_iff.2 fun key => exists_agreeAt_iff.1 ?_
      cases hagree key with
      | both hx hy hm ht =>
        have hxt := ih (mem_params_of_param? hx) (comesTo_of_unify hm) (ha.param hu hx)
        exact ⟨_, .both hx ht hxt rfl⟩
      | left hx hy hopen ht => exact ⟨_, .both hx ht (ha.param hu hx).unify_self rfl⟩
      | right hx hy hopen ht => exact ⟨_, .right hx ht hopen rfl⟩
      | neither hx hy ht => exact ⟨_, .neither hx ht rfl⟩

theorem ComesTo.unifies_right (h : ComesTo a b t) (hb : Clean b) :
    (unify t b).isMismatch = false := by
  induction a using params_induction generalizing b t with
  | step a ih =>
    cases h with
    | left _ _ ht => exact ht ▸ hb.unify_self
    | right hca hub ht => exact ht ▸ (unify_right_open hca hub).symm ▸ (isConcrete_iff.1 hca).2
    | both hab ht _ hagree =>
      have hu := (isConcrete_iff.1 hab.right).1
      refine ((hab.of_params ht).symm.trans hab).unify_iff.2 fun key => exists_agreeAt_iff.1 ?_
      cases hagree key with
      | both hx hy hm ht =>
        have hty := ih (mem_params_of_param? hx) (comesTo_of_unify hm) (hb.param hu hy)
        exact ⟨_, .both ht hy hty rfl⟩
      | left hx hy hopen ht => exact ⟨_, .left ht hy hopen rfl⟩
      | right hx hy hopen ht => exact ⟨_, .both ht hy (hb.param hu hy).unify_self rfl⟩
      | neither hx hy ht => exact ⟨_, .neither ht hy rfl⟩

end Dataflow.ValueType
