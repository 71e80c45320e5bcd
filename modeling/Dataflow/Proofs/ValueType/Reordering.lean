import Dataflow.Proofs.ValueType.Laws

/-! Many types in another order.

What many types come to is the least type above them all (`below_unifyAll`, `unifyAll_below`), in an
order that reads parameters as demands (`Below`). So it is the same for every order in which they
come, if they come to anything (`unifyAll_eq_of_perm`). Whether they do can depend on it: a
parameter that one type leaves open is taken up by what it comes to with another, and nothing then
is held against a third one that demands it. -/

namespace Dataflow.ValueType

variable {display : String → String → String} {a b c t u x y : ValueType} {key : String}
variable {ts us : List ValueType}

/-! ## The order -/

/-- The second type demands all that the first one does. -/
inductive Below : ValueType → ValueType → Prop
  | bottom {a b : ValueType} : a.isUnresolved → Below a b
  | params {a b : ValueType} : Alike a b →
    (∀ {key x}, a.param? key = some x → (b.param? key).isSome) →
    (∀ {key x y}, a.param? key = some x → b.param? key = some y → Below x y) → Below a b

theorem Below.refl (h : Neat display a) : Below a a := by
  induction a using params_induction with
  | step a ih =>
    rcases isUnresolved_or_isConcrete h.tidy.whole with hu | hc
    · exact .bottom hu
    refine .params ⟨hc, hc, rfl, rfl⟩ (fun hx => hx ▸ rfl) fun hx hy => ?_
    obtain rfl := Option.some.inj (hx.symm.trans hy)
    exact ih (mem_params_of_param? hx) (h.param hx)

theorem Below.trans (hab : Below a b) (hbc : Below b c) : Below a c := by
  induction hab generalizing c with
  | bottom hua => exact .bottom hua
  | params hab hsome _ ih =>
    cases hbc with
    | bottom hub => exact absurd hub (not_open_of_concrete hab.right)
    | params hbc hsome' hbelow' =>
      refine .params (hab.trans hbc) (fun {key x} hx => ?_) fun {key x z} hx hz => ?_
      all_goals obtain ⟨y, hy⟩ := Option.isSome_iff_exists.1 (hsome hx)
      · exact hsome' hy
      · exact ih hx hy (hbelow' hy hz)

theorem Neat.eq_of_below (ha : Neat display a) (hb : Neat display b) (hab : Below a b)
    (hba : Below b a) : a = b := by
  induction a using params_induction generalizing b with
  | step a ih =>
    cases hab with
    | bottom hua =>
      cases hba with
      | bottom hub => exact ha.eq_of_open hb hua hub
      | params hba _ _ => exact absurd hua (not_open_of_concrete hba.right)
    | params hab hsome hbelow =>
      cases hba with
      | bottom hub => exact absurd hub (not_open_of_concrete hab.right)
      | params _ hsome' hbelow' =>
        refine ha.eq_of_params hb hab.name hab.module
          (ha.tidy.sorted.ext hb.tidy.sorted fun key => ?_)
        change a.param? key = b.param? key
        cases hx : a.param? key with
        | none =>
          cases hy : b.param? key with
          | none => rfl
          | some y => simpa [hx] using hsome' hy
        | some x =>
          obtain ⟨y, hy⟩ := Option.isSome_iff_exists.1 (hsome hx)
          rw [hy, ih (mem_params_of_param? hx) (ha.param hx) (hb.param hy) (hbelow hx hy)
            (hbelow' hy hx)]

/-- What two types come to is above either of them. -/
theorem ComesTo.above (ha : Neat display a) (hb : Neat display b) (h : ComesTo a b t) :
    Below a t := by
  induction a using params_induction generalizing b t with
  | step a ih =>
    cases h with
    | left hua _ _ => exact .bottom hua
    | right _ _ ht =>
      rw [ht]
      exact .refl ha
    | both hab ht _ hagree =>
      refine .params (hab.of_params ht) (fun {key x} hx => ?_) fun {key x z} hx hz => ?_
      · exact (hagree key).isSome_iff.2 (.inl (hx ▸ rfl))
      rcases (hagree key).of_left hx with ⟨y, hy, hm, ht⟩ | ht
      all_goals cases hz.symm.trans ht
      · exact ih (mem_params_of_param? hx) (ha.param hx) (hb.param hy) (comesTo_of_unify hm)
      · exact .refl (ha.param hx)

/-- What two types come to is below all that both of them are below. -/
theorem ComesTo.below (h : ComesTo a b t) (hau : Below a u) (hbu : Below b u) : Below t u := by
  induction a using params_induction generalizing b t u with
  | step a ih =>
    cases h with
    | left _ _ ht => exact ht ▸ hbu
    | right _ _ ht => exact ht ▸ hau
    | both hab ht _ hagree =>
      cases hau with
      | bottom hua => exact absurd hua (not_open_of_concrete hab.left)
      | params hau hsome hbelow =>
        cases hbu with
        | bottom hub => exact absurd hub (not_open_of_concrete hab.right)
        | params _ hsome' hbelow' =>
          refine .params ((hab.of_params ht).symm.trans hau) (fun {key z} hz => ?_)
            fun {key z w} hz hw => ?_
          all_goals rcases (hz ▸ hagree key).of_some with ⟨x, y, hx, hy, hm, rfl⟩ | hx | hy
          · exact hsome hx
          · exact hsome hx
          · exact hsome' hy
          · exact ih (mem_params_of_param? hx) (comesTo_of_unify hm) (hbelow hx hw)
              (hbelow' hy hw)
          · exact hbelow hx hw
          · exact hbelow' hy hw

/-! ## What many types come to -/

theorem neat_unifyAll (hts : ∀ t ∈ ts, Neat coreDisplay t) (h : (unifyAll ts).isMismatch = false) :
    Neat coreDisplay (unifyAll ts) := by
  induction ts using List.reverseRecOn with
  | nil => exact Faultless.unresolved.neat
  | append_singleton ts t ih =>
    obtain ⟨hts, ht⟩ := List.forall_mem_append.1 hts
    rw [unifyAll_concat] at h ⊢
    exact (ih hts (not_mismatch_of_unify h).1).comesTo (ht t List.mem_cons_self)
      (comesTo_of_unify h)

/-- What the types of a list come to is above all of them. -/
theorem below_unifyAll (hts : ∀ t ∈ ts, Neat coreDisplay t)
    (h : (unifyAll ts).isMismatch = false) : ∀ t ∈ ts, Below t (unifyAll ts) := by
  induction ts using List.reverseRecOn with
  | nil => exact List.forall_mem_nil _
  | append_singleton ts t ih =>
    obtain ⟨hts, ht⟩ := List.forall_mem_append.1 hts
    have ht : Neat coreDisplay t := ht t List.mem_cons_self
    rw [unifyAll_concat] at h ⊢
    have hbefore := (not_mismatch_of_unify h).1
    have hs := neat_unifyAll hts hbefore
    have hcome := comesTo_of_unify h
    refine List.forall_mem_append.2 ⟨fun x hx => ?_, fun x hx => ?_⟩
    · exact (ih hts hbefore x hx).trans (hcome.above hs ht)
    · rw [List.mem_singleton.1 hx]
      exact (hcome.symm hs ht).above ht hs

/-- What the types of a list come to is below all that they are all below. -/
theorem unifyAll_below (h : (unifyAll ts).isMismatch = false) (hu : ∀ t ∈ ts, Below t u) :
    Below (unifyAll ts) u := by
  induction ts using List.reverseRecOn with
  | nil => exact .bottom rfl
  | append_singleton ts t ih =>
    obtain ⟨hts, ht⟩ := List.forall_mem_append.1 hu
    rw [unifyAll_concat] at h ⊢
    exact (comesTo_of_unify h).below (ih (not_mismatch_of_unify h).1 hts) (ht t List.mem_cons_self)

/-- In whatever order types come, they come to the same if they come to anything: each of the two is
below the other. -/
theorem unifyAll_eq_of_perm (hts : ∀ t ∈ ts, Neat coreDisplay t) (hp : ts.Perm us)
    (ht : (unifyAll ts).isMismatch = false) (hu : (unifyAll us).isMismatch = false) :
    unifyAll ts = unifyAll us := by
  have hus : ∀ t ∈ us, Neat coreDisplay t := fun t h => hts t (hp.mem_iff.2 h)
  refine (neat_unifyAll hts ht).eq_of_below (neat_unifyAll hus hu) ?_ ?_
  · exact unifyAll_below ht fun x hx => below_unifyAll hus hu x (hp.mem_iff.1 hx)
  · exact unifyAll_below hu fun x hx => below_unifyAll hts ht x (hp.mem_iff.2 hx)

/-! ## Types that unify with one another -/

/-- A type that unifies with two types unifies with what they come to. -/
theorem ComesTo.unifies (h : ComesTo a b t) (hac : (unify a c).isMismatch = false)
    (hbc : (unify b c).isMismatch = false) : (unify t c).isMismatch = false := by
  induction a using params_induction generalizing b c t with
  | step a ih =>
    cases h with
    | left _ _ ht => exact ht ▸ hbc
    | right _ _ ht => exact ht ▸ hac
    | both hab ht _ hagree =>
      have hat := hab.of_params ht
      rcases isUnresolved_or_isConcrete (not_mismatch_of_unify hac).2 with huc | hcc
      · rw [unify_right_open hat.right huc]
        exact (isConcrete_iff.1 hat.right).2
      have halike := alike_of_unify hab.left hcc hac
      rw [halike.unify_iff] at hac
      rw [(alike_of_unify hab.right hcc hbc).unify_iff] at hbc
      rw [(hat.symm.trans halike).unify_iff]
      -- a parameter on both sides, on the left alone and on the right alone
      refine fun key => ⟨fun hz hw => ?_, fun hz hw => ?_, fun hz hw => ?_⟩
      · rcases (hz ▸ hagree key).of_some with ⟨x, y, hx, hy, hm, rfl⟩ | hx | hy
        · exact ih (mem_params_of_param? hx) (comesTo_of_unify hm) ((hac key).both hx hw)
            ((hbc key).both hy hw)
        · exact (hac key).both hx hw
        · exact (hbc key).both hy hw
      · rcases (hz ▸ hagree key).of_some with ⟨x, y, hx, hy, hm, rfl⟩ | hx | hy
        · rw [isUnresolved_unify hm, or_and_left]
          exact ⟨(hac key).left hx hw, (hbc key).left hy hw⟩
        · exact (hac key).left hx hw
        · exact (hbc key).left hy hw
      · obtain ⟨hx, hy⟩ := (hagree key).eq_none_iff.1 hz
        rw [agreeAt_params_eq_nil hagree, and_or_right]
        exact ⟨(hac key).right hx hw, (hbc key).right hy hw⟩

/-- What unifies with all types of a list unifies with what they come to. -/
theorem unifyAll_unifies (hx : x.isMismatch = false) (h : (unifyAll ts).isMismatch = false)
    (hts : ∀ t ∈ ts, (unify t x).isMismatch = false) :
    (unify (unifyAll ts) x).isMismatch = false := by
  induction ts using List.reverseRecOn with
  | nil =>
    rw [unifyAll, List.foldl_nil, unify_unresolved_left]
    exact hx
  | append_singleton ts t ih =>
    obtain ⟨hts, ht⟩ := List.forall_mem_append.1 hts
    rw [unifyAll_concat] at h ⊢
    exact (comesTo_of_unify h).unifies (ih (not_mismatch_of_unify h).1 hts)
      (ht t List.mem_cons_self)

/-- Types that unify with one another come to something all together. -/
theorem unifyAll_of_pairwise (hts : ∀ t ∈ ts, t.isMismatch = false)
    (h : ts.Pairwise fun a b => (unify a b).isMismatch = false) :
    (unifyAll ts).isMismatch = false := by
  induction ts using List.reverseRecOn with
  | nil => rfl
  | append_singleton ts t ih =>
    obtain ⟨hts, ht⟩ := List.forall_mem_append.1 hts
    obtain ⟨hpair, -, hlast⟩ := List.pairwise_append.1 h
    rw [unifyAll_concat]
    exact unifyAll_unifies (ht t List.mem_cons_self) (ih hts hpair)
      fun x hx => hlast x hx t List.mem_cons_self

/-! ## Types that leave nothing open that others lack -/

/-- What the first type leaves open the second one has as well, if it has any parameters. -/
def Met (a b : ValueType) : Prop :=
  ∀ {key x}, a.param? key = some x → x.isUnresolved → b.params = [] ∨ (b.param? key).isSome

/-- Two types of one name have the same open parameters (`Met`), unless one has none at all, and so
on for the parameters that both of them have. -/
inductive Lined : ValueType → ValueType → Prop
  | apart {a b : ValueType} : a.name ≠ b.name ∨ a.module ≠ b.module → Lined a b
  | params {a b : ValueType} : Met a b → Met b a →
    (∀ {key x y}, a.param? key = some x → b.param? key = some y → Lined x y) → Lined a b

theorem Lined.symm (h : Lined a b) : Lined b a := by
  induction h with
  | apart h => exact .apart (h.imp Ne.symm Ne.symm)
  | params hab hba _ ih => exact .params hba hab fun hx hy => ih hy hx

/-- What is lined up with two types is lined up with what they come to. -/
theorem ComesTo.lined (h : ComesTo a b t) (hac : Lined a c) (hbc : Lined b c) : Lined t c := by
  induction a using params_induction generalizing b c t with
  | step a ih =>
    cases h with
    | left _ _ ht => exact ht ▸ hbc
    | right _ _ ht => exact ht ▸ hac
    | both hab ht _ hagree =>
      have hat := hab.of_params ht
      cases hac with
      | apart h => exact .apart (hat.name ▸ hat.module ▸ h)
      | params hac hca hlined =>
        cases hbc with
        | apart h => exact .apart (hat.name ▸ hat.module ▸ hab.name ▸ hab.module ▸ h)
        | params hbc hcb hlined' =>
          refine .params (fun {key z} hz hopen => ?_) (fun {key w} hw hopen => ?_)
            fun {key z w} hz hw => ?_
          · rcases (hz ▸ hagree key).of_some with ⟨x, y, hx, hy, hm, rfl⟩ | hx | hy
            · exact hac hx ((isUnresolved_unify hm).1 hopen).1
            · exact hac hx hopen
            · exact hbc hy hopen
          · rw [agreeAt_params_eq_nil hagree, (hagree key).isSome_iff]
            rcases hca hw hopen, hcb hw hopen with ⟨ha | hsome, hb | hsome'⟩
            · exact .inl ⟨ha, hb⟩
            · exact .inr (.inr hsome')
            all_goals exact .inr (.inl hsome)
          · rcases (hz ▸ hagree key).of_some with ⟨x, y, hx, hy, hm, rfl⟩ | hx | hy
            · exact ih (mem_params_of_param? hx) (comesTo_of_unify hm) (hlined hx hw)
                (hlined' hy hw)
            · exact hlined hx hw
            · exact hlined' hy hw

/-- Of two types that are lined up the first unifies with all that they unify with together. -/
theorem ComesTo.left_unifies (h : ComesTo a b t) (hlined : Lined a b)
    (htc : (unify t c).isMismatch = false) : (unify a c).isMismatch = false := by
  induction a using params_induction generalizing b c t with
  | step a ih =>
    cases h with
    | left hua _ _ => exact unify_left_open hua ▸ (not_mismatch_of_unify htc).2
    | right _ _ ht => exact ht ▸ htc
    | both hab ht _ hagree =>
      have hat := hab.of_params ht
      rcases isUnresolved_or_isConcrete (not_mismatch_of_unify htc).2 with huc | hcc
      · rw [unify_right_open hab.left huc]
        exact (isConcrete_iff.1 hab.left).2
      cases hlined with
      | apart h => exact absurd h (by simp [hab.name, hab.module])
      | params _ hba hlined =>
      have halike := alike_of_unify hat.right hcc htc
      rw [halike.unify_iff] at htc
      rw [(hat.trans halike).unify_iff]
      refine fun key => ⟨fun hx hw => ?_, fun hx hw => ?_, fun hx hw => ?_⟩
      · rcases (hagree key).of_left hx with ⟨y, hy, hm, ht⟩ | ht
        · exact ih (mem_params_of_param? hx) (comesTo_of_unify hm) (hlined hx hy)
            ((htc key).both ht hw)
        · exact (htc key).both ht hw
      · rcases (hagree key).of_left hx with ⟨y, hy, hm, ht⟩ | ht
        · exact ((htc key).left ht hw).imp_right fun h => ((isUnresolved_unify hm).1 h).1
        · exact (htc key).left ht hw
      · rcases hagree key with ⟨hx', -⟩ | ⟨hx', -⟩ | ⟨-, hy, hopen, ht⟩ | ⟨-, hy, ht⟩
        · cases hx.symm.trans hx'
        · cases hx.symm.trans hx'
        -- here the second type could have hidden that the first one lacks the parameter
        · exact .inl (hopen.elim id fun hopen => (hba hy hopen).resolve_right (by simp [hx]))
        · exact ((htc key).right ht hw).imp_left fun h => ((agreeAt_params_eq_nil hagree).1 h).1

theorem Lined.unifyAll (h : (unifyAll ts).isMismatch = false) (hts : ∀ t ∈ ts, Lined t x) :
    Lined (unifyAll ts) x := by
  induction ts using List.reverseRecOn with
  | nil => exact .params nofun (fun _ _ => .inl rfl) nofun
  | append_singleton ts t ih =>
    obtain ⟨hts, ht⟩ := List.forall_mem_append.1 hts
    rw [unifyAll_concat] at h ⊢
    exact (comesTo_of_unify h).lined (ih (not_mismatch_of_unify h).1 hts) (ht t List.mem_cons_self)

/-- Types that are lined up all unify with what they unify with together. -/
theorem unifies_of_unifyAll (hts : ∀ t ∈ ts, Neat coreDisplay t) (hlined : ts.Pairwise Lined)
    (h : (unify (unifyAll ts) x).isMismatch = false) :
    ∀ t ∈ ts, (unify t x).isMismatch = false := by
  induction ts using List.reverseRecOn with
  | nil => exact List.forall_mem_nil _
  | append_singleton ts t ih =>
    obtain ⟨hts, ht⟩ := List.forall_mem_append.1 hts
    have ht : Neat coreDisplay t := ht t List.mem_cons_self
    obtain ⟨hlined, -, hlast⟩ := List.pairwise_append.1 hlined
    rw [unifyAll_concat] at h
    have hm := (not_mismatch_of_unify h).1
    have hbefore := (not_mismatch_of_unify hm).1
    have hcome := comesTo_of_unify hm
    have hst : Lined (unifyAll ts) t :=
      .unifyAll hbefore fun y hy => hlast y hy t List.mem_cons_self
    refine List.forall_mem_append.2 ⟨ih hts hlined (hcome.left_unifies hst h), fun y hy => ?_⟩
    rw [List.mem_singleton.1 hy]
    exact (hcome.symm (neat_unifyAll hts hbefore) ht).left_unifies hst.symm h

theorem pairwise_of_unifyAll (hts : ∀ t ∈ ts, Neat coreDisplay t) (hlined : ts.Pairwise Lined)
    (h : (unifyAll ts).isMismatch = false) :
    ts.Pairwise fun a b => (unify a b).isMismatch = false := by
  induction ts using List.reverseRecOn with
  | nil => exact .nil
  | append_singleton ts t ih =>
    obtain ⟨hts, -⟩ := List.forall_mem_append.1 hts
    obtain ⟨hlined, -, -⟩ := List.pairwise_append.1 hlined
    rw [unifyAll_concat] at h
    refine List.pairwise_append.2
      ⟨ih hts hlined (not_mismatch_of_unify h).1, List.pairwise_singleton .., fun x hx y hy => ?_⟩
    rw [List.mem_singleton.1 hy]
    exact unifies_of_unifyAll hts hlined h x hx

/-! ## Types in another order -/

theorem unifyAll_of_pairwise_perm (hts : ∀ t ∈ ts, Neat coreDisplay t) (hp : ts.Perm us)
    (h : ts.Pairwise fun a b => (unify a b).isMismatch = false) :
    (unifyAll us).isMismatch = false := by
  have hboth : ts.Pairwise fun a b =>
      (unify a b).isMismatch = false ∧ (unify b a).isMismatch = false :=
    h.imp_of_mem fun ha hb hab => ⟨hab, ((hts _ ha).isMismatch_comm (hts _ hb)).1 hab⟩
  exact unifyAll_of_pairwise (fun t ht => (hts t (hp.mem_iff.2 ht)).tidy.whole)
    (((hp.pairwise_iff And.symm).1 hboth).imp And.left)

/-- Types in two orders come to the same if neither is a mismatch (`unifyAll_eq_of_perm`); and they
come to a mismatch in both or in neither if all of them unify with one another
(`unifyAll_of_pairwise`), and if they have the same open parameters, as `Lined` says: then they come
to something only where all of them unify with one another (`pairwise_of_unifyAll`). -/
theorem unifyAll_perm (hts : ∀ t ∈ ts, Faultless t) (hp : ts.Perm us) :
    ((unifyAll ts).isMismatch = false → (unifyAll us).isMismatch = false →
      unifyAll ts = unifyAll us) ∧
    ((ts.Pairwise fun a b => a.unifies b) →
      (unifyAll ts).isMismatch = false ∧ unifyAll ts = unifyAll us) ∧
    (ts.Pairwise Lined →
      ((unifyAll ts).isMismatch ∧ (unifyAll us).isMismatch) ∨ unifyAll ts = unifyAll us) := by
  have hneat : ∀ t ∈ ts, Neat coreDisplay t := fun t ht => (hts t ht).neat
  have hneat' : ∀ t ∈ us, Neat coreDisplay t := fun t ht => hneat t (hp.mem_iff.2 ht)
  refine ⟨unifyAll_eq_of_perm hneat hp, fun hpair => ?_, fun hlined => ?_⟩
  · simp only [unifies_iff] at hpair
    have h := unifyAll_of_pairwise_perm hneat (.refl ts) hpair
    exact ⟨h, unifyAll_eq_of_perm hneat hp h (unifyAll_of_pairwise_perm hneat hp hpair)⟩
  · cases hm : (unifyAll ts).isMismatch with
    | false =>
      have hpair := pairwise_of_unifyAll hneat hlined hm
      exact .inr (unifyAll_eq_of_perm hneat hp hm (unifyAll_of_pairwise_perm hneat hp hpair))
    | true =>
      refine .inl ⟨rfl, ?_⟩
      cases hm' : (unifyAll us).isMismatch with
      | true => rfl
      | false =>
        have hpair := pairwise_of_unifyAll hneat' ((hp.pairwise_iff Lined.symm).1 hlined) hm'
        exact absurd (unifyAll_of_pairwise_perm hneat' hp.symm hpair) (by simp [hm])

/-- Objects with the same field and one that has none, and two types that do not unify. -/
theorem unifyAll_perm_objects :
    unifyAll [object [("a", unresolved)], object [("a", number)], object []] =
      unifyAll [object [("a", number)], object [("a", unresolved)], object []] ∧
    (unifyAll [object [("a", unresolved)], object [("a", number)], object []]).isMismatch = false ∧
    ((unifyAll [number, string]).isMismatch ∧ (unifyAll [string, number]).isMismatch ∨
      unifyAll [number, string] = unifyAll [string, number]) := by
  have hts : ∀ t ∈ [object [("a", unresolved)], object [("a", number)], object []],
      Faultless t := by
    simp only [List.forall_mem_cons]
    exact ⟨.single .unresolved, .single .number, .object .nil nofun, nofun⟩
  have hus : ∀ t ∈ [number, string], Faultless t := by
    simp only [List.forall_mem_cons]
    exact ⟨.number, .string, nofun⟩
  obtain ⟨heq, hpair, -⟩ := unifyAll_perm hts (.swap ..)
  obtain ⟨-, -, hlined⟩ := unifyAll_perm hus (.swap ..)
  refine ⟨heq (by decide +kernel) (by decide +kernel), (hpair (by decide +kernel)).1,
    hlined (List.pairwise_pair.2 (.apart (by decide)))⟩

/-- Whether types come to anything can depend on their order: what the first object leaves open
keeps the second one from being held against the third. -/
theorem unifyAll_reordered :
    (∀ t ∈ [object [("a", unresolved)], object [("b", unresolved)], object [("a", number)]],
      Faultless t) ∧
    [object [("a", unresolved)], object [("b", unresolved)], object [("a", number)]].Perm
      [object [("b", unresolved)], object [("a", number)], object [("a", unresolved)]] ∧
    unifyAll [object [("a", unresolved)], object [("b", unresolved)], object [("a", number)]] =
      object [("a", number), ("b", unresolved)] ∧
    (unifyAll [object [("b", unresolved)], object [("a", number)],
      object [("a", unresolved)]]).isMismatch := by
  refine ⟨?_, by decide +kernel, by decide +kernel, by decide +kernel⟩
  simp only [List.forall_mem_cons]
  exact ⟨.single .unresolved, .single .unresolved, .single .number, nofun⟩

end Dataflow.ValueType
