import Dataflow.Proofs.ValueType.Mismatch

/-! Unification as a bound: what two types come to is the same from either side, and nothing new to
either of them (`ComesTo.bound`). And a mismatch within one of them is never lost
(`HasMismatch.unify`). -/

namespace Dataflow.ValueType

variable {display : String → String → String} {a b t x : ValueType} {key : String}

/-! ## Types that are put down in one way -/

/-- A type that is put down as its name wants it, and that is no mismatch. -/
structure Tidy (display : String → String → String) (t : ValueType) : Prop where
  sorted : Fields.Sorted t.params
  bare : t.isUnresolved → t.params = []
  display : t.display = display t.module t.name
  reason : t.reason = none
  whole : t.isMismatch = false

def Neat (display : String → String → String) (a : ValueType) : Prop :=
  ∀ t, Part t a → t.Tidy display

theorem Neat.tidy (h : Neat display a) : a.Tidy display := h a (.self a)

theorem Neat.param (h : Neat display a) (hx : a.param? key = some x) : Neat display x :=
  fun t ht => h t (.param (mem_params_of_param? hx) ht)

theorem Neat.of_params (h : a.Tidy display)
    (hparams : ∀ {key x}, (key, x) ∈ a.params → Neat display x) : Neat display a :=
  forall_part h hparams

theorem Neat.ordered (h : Neat display a) : Ordered a := fun t ht => (h t ht).sorted

theorem Neat.bare (h : Neat display a) : Bare a := fun t ht => (h t ht).bare

theorem Neat.not_hasMismatch (h : Neat display a) : ¬HasMismatch a := by
  rw [hasMismatch_iff_part]
  rintro ⟨t, ht, hm⟩
  exact absurd hm (by simp [(h t ht).whole])

/-- But for the parameters, tidy types of one name are the same. -/
theorem Neat.with_params (ha : Neat display a) (hb : Neat display b) (hn : a.name = b.name)
    (hm : a.module = b.module) (ps : List (String × ValueType)) :
    { a with params := ps } = { b with params := ps } := by
  have hd : a.display = b.display := by rw [ha.tidy.display, hb.tidy.display, hn, hm]
  have hr : a.reason = b.reason := ha.tidy.reason.trans hb.tidy.reason.symm
  cases a
  cases b
  simp_all

theorem Neat.eq_of_params (ha : Neat display a) (hb : Neat display b) (hn : a.name = b.name)
    (hm : a.module = b.module) (hp : a.params = b.params) : a = b := by
  have h := ha.with_params hb hn hm a.params
  cases a
  cases b
  cases hp
  exact h

theorem Neat.eq_of_open (ha : Neat display a) (hb : Neat display b) (hua : a.isUnresolved)
    (hub : b.isUnresolved) : a = b := by
  obtain ⟨hna, hma⟩ := eq_of_isUnresolved hua
  obtain ⟨hnb, hmb⟩ := eq_of_isUnresolved hub
  exact ha.eq_of_params hb (hna.trans hnb.symm) (hma.trans hmb.symm)
    ((ha.tidy.bare hua).trans (hb.tidy.bare hub).symm)

/-! ### Made by the constructors -/

/-- Made by the constructors throughout, and none of it is a mismatch. -/
inductive Faultless : ValueType → Prop
  | unresolved : Faultless unresolved
  | string : Faultless string
  | number : Faultless number
  | boolean : Faultless boolean
  | array {t : ValueType} : Faultless t → Faultless (array t)
  | pair {t : ValueType} : Faultless t → Faultless (pair t)
  | object {fields : Fields ValueType} : fields.Sorted →
    (∀ {key t}, (key, t) ∈ fields → Faultless t) → Faultless (object fields)

theorem Faultless.single (h : Faultless t) : Faultless (.object [(key, t)]) := by
  refine Faultless.object (List.pairwise_singleton ..) fun {key x} hx => ?_
  obtain ⟨-, rfl⟩ := Prod.mk.inj (List.mem_singleton.1 hx)
  exact h

/-- How the constructors put down a name. -/
def coreDisplay (_ name : String) : String :=
  match name with
  | "Unresolved" => unresolved.display
  | "Array" => (array unresolved).display
  | "Pair" => (pair unresolved).display
  | other => other

theorem Tidy.core (name : String) {fields : Fields ValueType} (hsorted : fields.Sorted)
    (hbare : (core name (coreDisplay "Core" name) fields).isUnresolved → fields = [])
    (hwhole : (core name (coreDisplay "Core" name) fields).isMismatch = false) :
    (core name (coreDisplay "Core" name) fields).Tidy coreDisplay :=
  ⟨hsorted, hbare, rfl, rfl, hwhole⟩

theorem Faultless.neat (h : Faultless a) : Neat coreDisplay a := by
  induction h with
  | unresolved => exact .of_params (.core _ .nil (fun _ => rfl) rfl) nofun
  | string => exact .of_params (.core _ .nil (fun _ => rfl) rfl) nofun
  | number => exact .of_params (.core _ .nil (fun _ => rfl) rfl) nofun
  | boolean => exact .of_params (.core _ .nil (fun _ => rfl) rfl) nofun
  | array _ ih =>
    refine .of_params (.core "Array" (List.pairwise_singleton ..) nofun rfl) ?_
    rintro key x (_ | ⟨_, ⟨⟩⟩)
    exact ih
  | pair _ ih =>
    refine .of_params (.core "Pair" (List.pairwise_singleton ..) nofun rfl) ?_
    rintro key x (_ | ⟨_, ⟨⟩⟩)
    exact ih
  | object hsorted _ ih => exact .of_params (.core "Object" hsorted nofun rfl) ih

/-- Two types of which the parts are put down alike where they have one name: parameters stand in
the order of their names, only a mismatch carries a reason, and what is left open has no parameters.
Without a mismatch within them both are then `Neat` for one way to put down names (`Uniform.neat`).
-/
structure Uniform (a b : ValueType) : Prop where
  sorted : ∀ t, Part t a ∨ Part t b → Fields.Sorted t.params
  bare : ∀ t, Part t a ∨ Part t b → t.isUnresolved → t.params = []
  display : ∀ t u, Part t a ∨ Part t b → Part u a ∨ Part u b →
    t.module = u.module → t.name = u.name → t.display = u.display
  reason : ∀ t, Part t a ∨ Part t b → t.isMismatch = false → t.reason = none

theorem Uniform.neat (h : Uniform a b) (ha : ¬HasMismatch a) (hb : ¬HasMismatch b) :
    ∃ display, Neat display a ∧ Neat display b := by
  classical
  -- a name is put down as by any part that has it
  let Named (module name : String) (t : ValueType) : Prop :=
    (Part t a ∨ Part t b) ∧ t.module = module ∧ t.name = name
  let display (module name : String) : String :=
    if h : ∃ t, Named module name t then h.choose.display else ""
  have tidy {t : ValueType} (ht : Part t a ∨ Part t b) : t.Tidy display := by
    have hnamed : ∃ u, Named t.module t.name u := ⟨t, ht, rfl, rfl⟩
    have hwhole : t.isMismatch = false := by
      rw [hasMismatch_iff_part] at ha hb
      refine Bool.eq_false_iff.2 fun hm => ?_
      exact ht.elim (fun h => ha ⟨t, h, hm⟩) (fun h => hb ⟨t, h, hm⟩)
    refine ⟨h.sorted t ht, h.bare t ht, ?_, h.reason t ht hwhole, hwhole⟩
    obtain ⟨hu, hmodule, hname⟩ := hnamed.choose_spec
    have hdisplay : display t.module t.name = hnamed.choose.display := dif_pos hnamed
    exact (h.display t _ ht hu hmodule.symm hname.symm).trans hdisplay.symm
  exact ⟨display, fun t ht => tidy (.inl ht), fun t ht => tidy (.inr ht)⟩

theorem Neat.uniform (ha : Neat display a) (hb : Neat display b) : Uniform a b := by
  have tidy {t : ValueType} (ht : Part t a ∨ Part t b) : t.Tidy display := ht.elim (ha t) (hb t)
  refine ⟨fun t ht => (tidy ht).sorted, fun t ht => (tidy ht).bare, fun t u ht hu hm hn => ?_,
    fun t ht _ => (tidy ht).reason⟩
  rw [(tidy ht).display, (tidy hu).display, hm, hn]

/-! ## The laws -/

theorem comesTo_self (h : Neat display a) : ComesTo a a a := by
  induction a using params_induction with
  | step a ih =>
    rcases isUnresolved_or_isConcrete h.tidy.whole with hu | hc
    · exact .left hu h.tidy.whole rfl
    refine .both ⟨hc, hc, rfl, rfl⟩ (by cases a; rfl) h.tidy.sorted fun key => ?_
    cases hx : a.param? key with
    | none => exact .neither hx hx rfl
    | some x =>
      have hself := ih (mem_params_of_param? hx) (h.param hx)
      exact .both hx hx (hself.unify_eq.symm ▸ hself.isMismatch) (congrArg some hself.unify_eq.symm)

theorem ComesTo.symm (ha : Neat display a) (hb : Neat display b) (h : ComesTo a b t) :
    ComesTo b a t := by
  induction a using params_induction generalizing b t with
  | step a ih =>
    cases h with
    | left hua hmb ht =>
      subst ht
      rcases isUnresolved_or_isConcrete hmb with hub | hcb
      · exact .left hub ha.tidy.whole (hb.eq_of_open ha hub hua)
      · exact .right hcb hua rfl
    | right hca hub ht => exact .left hub ha.tidy.whole ht
    | both hab ht hsorted hagree =>
      have hparams := ht.trans (ha.with_params hb hab.name hab.module _)
      refine .both hab.symm hparams hsorted fun key => ?_
      cases hagree key with
      | both hx hy hm ht =>
        have hyx := ih (mem_params_of_param? hx) (ha.param hx) (hb.param hy) (comesTo_of_unify hm)
        exact .both hy hx (hyx.unify_eq.symm ▸ hm) (ht.trans (congrArg some hyx.unify_eq.symm))
      | left hx hy hopen ht => exact .right hy hx hopen ht
      | right hx hy hopen ht => exact .left hy hx hopen ht
      | neither hx hy ht => exact .neither hy hx ht

theorem Neat.unify_comm (ha : Neat display a) (hb : Neat display b)
    (h : (unify a b).isMismatch = false) : unify b a = unify a b :=
  ((comesTo_of_unify h).symm ha hb).unify_eq

theorem Neat.isMismatch_comm (ha : Neat display a) (hb : Neat display b) :
    (unify a b).isMismatch = false ↔ (unify b a).isMismatch = false :=
  ⟨fun h => ha.unify_comm hb h ▸ h, fun h => hb.unify_comm ha h ▸ h⟩

/-- What two types come to adds nothing new to them. -/
theorem ComesTo.bound (ha : Neat display a) (h : ComesTo a b t) : ComesTo a t t := by
  induction a using params_induction generalizing b t with
  | step a ih =>
    cases h with
    | left hua hmb ht => exact .left hua (ht ▸ hmb) rfl
    | right hca hub ht =>
      rw [ht]
      exact comesTo_self ha
    | both hab ht hsorted hagree =>
      refine .both (hab.of_params ht) ht hsorted fun key => ?_
      cases hagree key with
      | both hx hy hm ht =>
        have hxt := ih (mem_params_of_param? hx) (ha.param hx) (comesTo_of_unify hm)
        exact .both hx ht (hxt.unify_eq.symm ▸ hm) (ht.trans (congrArg some hxt.unify_eq.symm))
      | left hx hy hopen ht =>
        have hself := comesTo_self (ha.param hx)
        exact .both hx ht (hself.unify_eq.symm ▸ hself.isMismatch)
          (ht.trans (congrArg some hself.unify_eq.symm))
      | right hx hy hopen ht => exact .right hx ht hopen ht
      | neither hx hy ht => exact .neither hx ht ht

theorem Neat.comesTo (ha : Neat display a) (hb : Neat display b) (h : ComesTo a b t) :
    Neat display t := by
  induction a using params_induction generalizing b t with
  | step a ih =>
    cases h with
    | left _ _ ht => exact ht ▸ hb
    | right _ _ ht => exact ht ▸ ha
    | both hab ht hsorted hagree =>
      have htidy := ha.tidy
      refine .of_params ?_ fun {key x} hx => ?_
      · refine ⟨hsorted, fun hu => ?_, ?_, ?_, ?_⟩
        · rw [ht] at hu
          exact absurd hu (not_open_of_concrete hab.left)
        all_goals rw [ht]
        · exact htidy.display
        · exact htidy.reason
        · exact htidy.whole
      · have hkey : t.param? key = some x := hsorted.lookup_iff.2 hx
        clear hx
        rcases (hkey ▸ hagree key).of_some with ⟨x, y, hx, hy, hm, rfl⟩ | hx | hy
        · exact ih (mem_params_of_param? hx) (ha.param hx) (hb.param hy) (comesTo_of_unify hm)
        · exact ha.param hx
        · exact hb.param hy

/-! ## What holds of all types -/

/-- Types that are put down alike (`Uniform`), with no mismatch within them, unify in the same way
from either side, each to itself with itself; and with what they come to they come to nothing new.
What comes of any two types keeps the mismatches within them.

The first part is said of `ComesTo`, which is the same from either side (`ComesTo.symm`) and bounds
both of its types (`ComesTo.bound`); the second is `HasMismatch.unify`. -/
theorem unify_bound :
    (∀ a b, Uniform a b → ¬HasMismatch a → ¬HasMismatch b →
      unify a a = a ∧ a.unifies b = b.unifies a ∧
      (a.unifies b → unify b a = unify a b ∧ ¬HasMismatch (unify a b) ∧
        unify a (unify a b) = unify a b ∧ unify (unify a b) a = unify a b ∧
        unify b (unify a b) = unify a b)) ∧
    ∀ a b, Ordered a → Ordered b → Bare a → Bare b → HasMismatch a ∨ HasMismatch b →
      HasMismatch (unify a b) := by
  refine ⟨fun a b h hna hnb => ?_, fun a b ha hb hba hbb => .unify ha hb hba hbb⟩
  obtain ⟨display, ha, hb⟩ := h.neat hna hnb
  refine ⟨(comesTo_self ha).unify_eq, ?_, fun hab => ?_⟩
  · rw [Bool.eq_iff_iff, unifies_iff, unifies_iff]
    exact ha.isMismatch_comm hb
  · have hab := comesTo_of_unify (unifies_iff.1 hab)
    have hba := hab.symm ha hb
    have hm : Neat display (unify a b) := ha.comesTo hb hab
    have hbound := hab.bound ha
    exact ⟨hba.unify_eq, hm.not_hasMismatch, hbound.unify_eq, (hbound.symm ha hm).unify_eq,
      (hba.bound hb).unify_eq⟩

/-- An object with a field and an open one, and a mismatch in a field. -/
theorem unify_bound_object :
    unify (object []) (object [("a", number)]) = unify (object [("a", number)]) (object []) ∧
      HasMismatch (unify (object [("a", mismatch "r")]) unresolved) := by
  have hfields : Faultless (object [("a", number)]) := .single .number
  have hopen : Faultless (object []) := .object .nil nofun
  have ha := hfields.neat
  have hb := hopen.neat
  have hu := Faultless.unresolved.neat
  have mismatch_only {p : ValueType → Prop} (h : p (mismatch "r")) {key : String} {x : ValueType}
      (hx : (key, x) ∈ [("a", mismatch "r")]) : ∀ t, Part t x → p t := by
    obtain ⟨-, rfl⟩ := Prod.mk.inj (List.mem_singleton.1 hx)
    exact forall_part h nofun
  obtain ⟨-, -, hunify⟩ :=
    unify_bound.1 _ _ (ha.uniform hb) ha.not_hasMismatch hb.not_hasMismatch
  refine ⟨(hunify (by decide +kernel)).1, unify_bound.2 _ _ ?_ hu.ordered ?_ hu.bare
    (.inl (.param List.mem_cons_self (.here rfl)))⟩
  · exact forall_part (List.pairwise_singleton ..) (mismatch_only .nil)
  · exact forall_part nofun (mismatch_only nofun)

end Dataflow.ValueType
