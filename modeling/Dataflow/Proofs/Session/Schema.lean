import Dataflow.Proofs.Graph.Params
import Dataflow.Proofs.Session.Proper

/-! Changes keep the parameters of nodes to their kinds (`Change.keepsParams`): a new node gets
those that its kind declares, and none is set but to a value of the kind that is declared for it. -/

namespace Dataflow

open Memo (Table)

variable {type key : String} {specs : List ParamSpec} {given ps : Params} {value : ParamValue}

theorem checkParam_ok : checkParam type specs key value = .ok () ↔
    (specs.find? (·.key = key)).map ParamSpec.kind = some value.kind := by
  unfold checkParam
  cases specs.find? (·.key = key) with
  | none => simp
  | some s =>
    dsimp only
    split <;> simp [*]

theorem ParamsMatch.insert (h : ParamsMatch specs ps)
    (hk : checkParam type specs key value = .ok ()) : ParamsMatch specs (ps.insert key value) := by
  intro k
  rw [Tables.getElem?_insert]
  split
  next he => exact he ▸ (checkParam_ok.1 hk).symm
  next => exact h k

/-! ## Defaults -/

theorem getElem?_foldl_insertIfNew (specs : List ParamSpec) (ps : Params) (key : String) :
    (specs.foldl (fun ps s => ps.insertIfNew s.key s.default) ps)[key]? =
      ps[key]?.or ((specs.find? (·.key = key)).map ParamSpec.default) := by
  induction specs generalizing ps with
  | nil => simp
  | cons s specs ih =>
    rw [List.foldl_cons, ih, Std.ExtTreeMap.getElem?_insertIfNew, List.find?_cons]
    by_cases hk : s.key = key
    · subst hk
      have hmem : s.key ∈ ps ↔ ps[s.key]?.isSome := Std.ExtTreeMap.mem_iff_isSome_getElem?
      cases hp : ps[s.key]? <;> simp_all
    · simp [hk, Std.LawfulEqCmp.compare_eq_iff_eq]

theorem forM_ok {α ε : Type} {f : α → Except ε Unit} {as : List α} (h : as.forM f = .ok ()) :
    ∀ a ∈ as, f a = .ok () := by
  induction as with
  | nil => exact List.forall_mem_nil _
  | cons a as ih =>
    have h : (f a >>= fun _ => as.forM f) = .ok () := h
    obtain ⟨_, ha, has⟩ := bind_ok h
    exact List.forall_mem_cons.2 ⟨ha, ih has⟩

theorem completeParams_match (hd : ∀ s ∈ specs, s.default.kind = s.kind)
    (h : completeParams type specs given = .ok ps) : ParamsMatch specs ps := by
  obtain ⟨_, hgiven, hps⟩ := bind_ok h
  obtain rfl := Except.ok.inj hps
  intro key
  rw [getElem?_foldl_insertIfNew]
  cases hk : given[key]? with
  | some value =>
    have hmem := Std.ExtTreeMap.mem_toList_iff_getElem?_eq_some.2 hk
    exact (checkParam_ok.1 (forM_ok hgiven _ hmem)).symm
  | none =>
    rw [Option.none_or, Option.map_map]
    cases hs : specs.find? (·.key = key) with
    | none => rfl
    | some s => exact congrArg some (hd s (List.mem_of_find?_eq_some hs))

/-! ## Changes -/

variable {e : Engine} {t : Table} {c : Change} {f : Effect}

theorem Change.keepsParams (hd : e.catalogue.All NodeDefinition.DefaultsMatch)
    (hg : e.graph.WellFormed) (h : e.graph.KeepsParams e.catalogue)
    (hf : (c.effect e t).1 = .ok f) : f.graph.KeepsParams e.catalogue := by
  cases c with
  | addNode module type given =>
    simp only [effect] at hf
    split at hf
    · obtain ⟨params, hp, hf⟩ := bind_ok hf
      obtain rfl := Except.ok.inj hf
      exact h.insert (n := ⟨⟨e.graph.nextNode⟩, module, type, params, _⟩)
        (fun _ => completeParams_match (hd module type) hp) rfl
    next hk =>
      obtain rfl := Except.ok.inj hf
      exact h.insert (n := ⟨⟨e.graph.nextNode⟩, module, type, given, _⟩)
        (fun hk' => absurd hk' hk) rfl
  | setParam id key value =>
    obtain ⟨n, hn, hf⟩ := bind_ok hf
    rw [Graph.requireNode_ok] at hn
    obtain rfl := hg.node_id hn
    obtain ⟨hk, r, hr, rfl⟩ : (e.catalogue.contains n.module n.type →
        checkParam n.type (e.catalogue.definitionOf n).params key value = .ok ()) ∧
        ∃ r, e.graph.setParam n.id key value = .ok r ∧
          f = ⟨.nothing, r.2, .setParam n.id key r.1, [n.id]⟩ := by
      split at hf
      · obtain ⟨_, hk, hf⟩ := bind_ok hf
        obtain ⟨r, hr, hf⟩ := bind_ok hf
        exact ⟨fun _ => hk, r, hr, (Except.ok.inj hf).symm⟩
      next hk =>
        obtain ⟨r, hr, hf⟩ := bind_ok hf
        exact ⟨fun hk' => absurd hk' hk, r, hr, (Except.ok.inj hf).symm⟩
    obtain ⟨previous, g'⟩ := r
    obtain ⟨m, hm, -, rfl⟩ := Graph.setParam_ok.1 hr
    cases hn.symm.trans hm
    exact h.insert (n := { n with params := n.params.insert key value })
      (fun hknown => (h _ n hn hknown).insert (hk hknown)) rfl
  | removeNode id =>
    cases Change.move hg hf with
    | removeNode _ =>
      intro id' m hm
      rw [Graph.node?_without] at hm
      split at hm
      · cases hm
      · exact h id' m hm
  | connect p q =>
    cases Change.move hg hf with
    | connect _ _ => exact h
  | disconnect id =>
    generalize hc : Change.disconnect id = c at hf
    cases Change.move hg hf with
    | disconnect _ => exact h
    | _ => cases hc

/-! ## Sessions -/

namespace Session

variable {s : Session}

theorem editAll_keepsParams (hd : s.catalogue.All NodeDefinition.DefaultsMatch)
    (hg : s.graph.WellFormed) (h : s.graph.KeepsParams s.catalogue) (steps : List Step) :
    (editAll steps s).2.graph.KeepsParams s.catalogue := by
  refine editAll_preserves (I := (·.KeepsParams s.catalogue)) hg (fun hc hg hp hf => ?_) h steps
  rw [← hc] at hd hp ⊢
  exact Change.keepsParams hd hg hp hf

theorem Edited.keepsParams {C : Catalogue} (hd : C.All NodeDefinition.DefaultsMatch)
    (h : s.Edited (· = C)) : s.graph.KeepsParams C := by
  induction h with
  | start => exact Graph.keepsParams_empty _
  | register _ _ _ _ ih => exact ih
  | editAll steps hs ih =>
    obtain rfl := hs.catalogue_eq
    exact editAll_keepsParams hd hs.reached.wellFormed ih steps
  | perform _ _ ih => exact ih
  | setPending _ _ ih => exact ih

theorem Edited.keepsParams_builtin (h : s.Edited (· = .builtin)) :
    s.graph.KeepsParams s.catalogue :=
  h.catalogue_eq.symm ▸ h.keepsParams Catalogue.builtin_defaultsMatch

end Session

end Dataflow
