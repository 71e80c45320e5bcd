import Dataflow.Proofs.Session.Schema

/-! When parameters are refused: for a node of a known kind, exactly if one of them is `Unfit`,
which is to say not declared for the kind, or of another kind than is declared first for its key.

What is refused leaves no trace. A node of an unknown kind takes any parameters; nothing is declared
for it. -/

namespace Dataflow

/-- The value does not suit the key: nothing is declared for it, or first another kind of value. -/
def Unfit (specs : List ParamSpec) (key : String) (value : ParamValue) : Prop :=
  (∀ s ∈ specs, s.key ≠ key) ∨ ∃ s, specs.find? (·.key = key) = some s ∧ s.kind ≠ value.kind

variable {type key : String} {specs : List ParamSpec} {given : Params} {value : ParamValue}
  {failure : GraphError}

theorem not_unfit_iff : ¬Unfit specs key value ↔ checkParam type specs key value = .ok () := by
  rw [checkParam_ok, Unfit]
  cases h : specs.find? (·.key = key) with
  | none =>
    have hnone : ∀ s ∈ specs, s.key ≠ key := by simpa using h
    exact iff_of_false (fun hu => hu (.inl hnone)) (by simp)
  | some s =>
    have hsome : ¬∀ s ∈ specs, s.key ≠ key := fun hnone =>
      hnone s (List.mem_of_find?_eq_some h) (by simpa using List.find?_some h)
    simp only [hsome, Option.some.injEq, exists_eq_left', false_or, not_not, Option.map_some]

theorem checkParam_error (h : checkParam type specs key value = .error failure) :
    Unfit specs key value ∧ ∃ fault, failure = .invalidParam type key fault := by
  refine ⟨by_contra fun hu => ?_, ?_⟩
  · cases h.symm.trans (not_unfit_iff.1 hu)
  · unfold checkParam at h
    split at h
    · exact ⟨_, (Except.error.inj h).symm⟩
    · split at h
      · cases h
      · exact ⟨_, (Except.error.inj h).symm⟩

theorem checkParam_error_iff :
    (∃ failure, checkParam type specs key value = .error failure) ↔ Unfit specs key value := by
  refine ⟨fun ⟨_, h⟩ => (checkParam_error h).1, fun hu => ?_⟩
  cases h : checkParam type specs key value with
  | error failure => exact ⟨failure, rfl⟩
  | ok _ => exact absurd hu (not_unfit_iff.2 h)

theorem forM_error {α ε : Type} {f : α → Except ε Unit} {as : List α} {r : ε}
    (h : as.forM f = .error r) : ∃ a ∈ as, f a = .error r := by
  induction as with
  | nil => cases h
  | cons a as ih =>
    have h : (f a >>= fun _ => as.forM f) = .error r := h
    rcases bind_error h with ha | ⟨_, -, has⟩
    · exact ⟨a, List.mem_cons_self, ha⟩
    · obtain ⟨b, hb, hf⟩ := ih has
      exact ⟨b, List.mem_cons_of_mem a hb, hf⟩

/-- The parameter that is named when some are refused is one that was given and does not suit. -/
theorem completeParams_error (h : completeParams type specs given = .error failure) :
    ∃ key value fault, given[key]? = some value ∧ Unfit specs key value ∧
      failure = .invalidParam type key fault := by
  rcases bind_error h with h | ⟨_, -, h⟩
  · obtain ⟨⟨key, value⟩, hmem, hcheck⟩ := forM_error h
    obtain ⟨hu, fault, hf⟩ := checkParam_error hcheck
    exact ⟨key, value, fault, Std.ExtTreeMap.mem_toList_iff_getElem?_eq_some.1 hmem, hu, hf⟩
  · cases h

theorem completeParams_error_iff :
    (∃ failure, completeParams type specs given = .error failure) ↔
      ∃ key value, given[key]? = some value ∧ Unfit specs key value := by
  constructor
  · rintro ⟨_, h⟩
    obtain ⟨key, value, -, hv, hu, -⟩ := completeParams_error h
    exact ⟨key, value, hv, hu⟩
  · rintro ⟨key, value, hv, hu⟩
    cases h : completeParams type specs given with
    | error failure => exact ⟨failure, rfl⟩
    | ok ps =>
      obtain ⟨_, hgiven, -⟩ := bind_ok h
      have hmem := Std.ExtTreeMap.mem_toList_iff_getElem?_eq_some.2 hv
      exact absurd hu (not_unfit_iff.2 (forM_ok hgiven _ hmem))

/-! ## Within a batch -/

namespace Edit

variable {e : Edit} {id : NodeId} {n : Node} {module : String}

/-- A change that fails leaves everything as it is but for what was remembered for it. -/
theorem map_error {α : Type} {x : EditM α} {f : α → Change.Result} {c : Change}
    (hx : f <$> x = c.apply) :
    ((x.run e).1 = .error failure ↔ (c.effect e.engine e.scratch).1 = .error failure) ∧
      ((x.run e).1 = .error failure →
        (x.run e).2 = { e with scratch := (c.effect e.engine e.scratch).2 }) := by
  have hrun : (f <$> x).run e = e.after (c.effect e.engine e.scratch) :=
    (congrArg (·.run e) hx).trans (apply_run c e)
  rw [EditM.run_map] at hrun
  generalize x.run e = r at hrun ⊢
  generalize c.effect e.engine e.scratch = r' at hrun ⊢
  rcases r with ⟨_ | a, e'⟩ <;> rcases r' with ⟨_ | f', t⟩
  · cases hrun
    simp
  · cases (Prod.mk.inj hrun).1
  · cases (Prod.mk.inj hrun).1
  · exact ⟨iff_of_false nofun nofun, nofun⟩

theorem pure_fst {α σ : Type} (a : α) (t : σ) : ((pure a : StateM σ α) t).1 = a := rfl

theorem addNode_error {given : Params} :
    ((Edit.addNode module type given).run e).1 = .error failure ↔ e.catalogue.contains module type ∧
      completeParams type (e.catalogue.definition module type).params given = .error failure := by
  refine (map_error (c := .addNode module type given) rfl).1.trans ?_
  simp only [Change.effect, engine, pure_fst]
  by_cases hk : e.catalogue.contains module type
  · simp only [hk, if_true, true_and]
    cases completeParams type (e.catalogue.definition module type).params given <;>
      simp [bind, Except.bind, pure, Except.pure]
  · simp [hk, bind, Except.bind, pure, Except.pure]

theorem setParam_error (hn : e.graph.node? id = some n) :
    ((Edit.setParam id key value).run e).1 = .error failure ↔
      e.catalogue.contains n.module n.type ∧
        checkParam n.type (e.catalogue.definitionOf n).params key value = .error failure := by
  refine (map_error (f := fun _ => .nothing) (c := .setParam id key value) rfl).1.trans ?_
  simp only [Change.effect, engine, pure_fst, Graph.requireNode_ok.2 hn, Graph.setParam]
  by_cases hk : e.catalogue.contains n.module n.type
  · cases hc : checkParam n.type (e.catalogue.definitionOf n).params key value <;>
      simp [bind, Except.bind, pure, Except.pure, hk, hc]
  · simp [hk, bind, Except.bind, pure, Except.pure]

/-- A node is refused exactly if its kind is known and a parameter given for it does not suit; one
that does not is named, and nothing is changed. This is what `completeParams` does
(`completeParams_error_iff`). -/
theorem addNode_refused (module type : String) (given : Params) (e : Edit) :
    ((∃ failure, ((Edit.addNode module type given).run e).1 = .error failure) ↔
      e.catalogue.contains module type ∧ ∃ key value, given[key]? = some value ∧
        Unfit (e.catalogue.definition module type).params key value) ∧
    ∀ failure, ((Edit.addNode module type given).run e).1 = .error failure →
      (∃ key value fault, failure = .invalidParam type key fault ∧ given[key]? = some value ∧
        Unfit (e.catalogue.definition module type).params key value) ∧
      ((Edit.addNode module type given).run e).2 = e := by
  refine ⟨?_, fun failure h => ⟨?_, (map_error (c := .addNode module type given) rfl).2 h⟩⟩
  · simp only [addNode_error, exists_and_left, completeParams_error_iff]
  · obtain ⟨key, value, fault, hv, hu, hf⟩ := completeParams_error (addNode_error.1 h).2
    exact ⟨key, value, fault, hf, hv, hu⟩

/-- So it is with a parameter that is set at a node. -/
theorem setParam_refused (hn : e.graph.node? id = some n) (key : String) (value : ParamValue) :
    ((∃ failure, ((Edit.setParam id key value).run e).1 = .error failure) ↔
      e.catalogue.contains n.module n.type ∧
        Unfit (e.catalogue.definitionOf n).params key value) ∧
    ∀ failure, ((Edit.setParam id key value).run e).1 = .error failure →
      (∃ fault, failure = .invalidParam n.type key fault) ∧
      ((Edit.setParam id key value).run e).2 = e := by
  refine ⟨?_, fun failure h => ⟨(checkParam_error ((setParam_error hn).1 h).2).2,
    (map_error (f := fun _ => .nothing) (c := .setParam id key value) rfl).2 h⟩⟩
  simp only [setParam_error hn, exists_and_left, checkParam_error_iff]

end Edit

/-! ## In a session -/

namespace Session

variable {s : Session} {C : Catalogue}

/-- A change by itself that fails leaves the session as it is. -/
theorem edit_failure {α : Type} {x : EditM α} {f : α → Change.Result} {c : Change}
    (hg : s.graph.WellFormed) (hx : f <$> x = c.apply) (h : (edit x s).1 = .error failure) :
    (edit x s).2 = s := by
  have hrun : (x.run s.openEdit).1 = .error failure := by
    rw [edit_run] at h
    rcases hr : x.run s.openEdit with ⟨_ | a, e⟩ <;> simp_all
  have hsnd := (Edit.map_error hx).2 hrun
  rw [edit_run, show x.run s.openEdit = (.error failure, _) from Prod.ext hrun hsnd]
  exact abandon_eq ⟨hg, .nil _, fun id _ => .refl _ id⟩

/-- As long as a session has one catalogue and no snapshot, its nodes of known kinds have the
parameters that are declared for them (`Graph.KeepsParams`), also in the middle of a batch. At any
such moment a node is refused exactly if its kind is known and a parameter given for it is
undeclared or of the wrong kind (`Unfit`), and so is a parameter that is set; the failure names such
a parameter, and nothing is changed.

That parameters are kept goes change by change (`Change.keepsParams`); the refusals are
`Edit.addNode_refused` and `Edit.setParam_refused`. -/
theorem params_keep_schema (hd : C.All NodeDefinition.DefaultsMatch) (h : s.Edited (· = C))
    (steps : List Step) :
    let e := (Step.applyAll steps s.openEdit).2
    (s.graph.KeepsParams C ∧ e.graph.KeepsParams C) ∧
      (∀ module type given,
        ((∃ failure, ((Edit.addNode module type given).run e).1 = .error failure) ↔
          C.contains module type ∧ ∃ key value, given[key]? = some value ∧
            Unfit (C.definition module type).params key value) ∧
        ∀ failure, ((Edit.addNode module type given).run e).1 = .error failure →
          (∃ key value fault, failure = .invalidParam type key fault ∧ given[key]? = some value ∧
            Unfit (C.definition module type).params key value) ∧
          ((Edit.addNode module type given).run e).2 = e) ∧
      (∀ id n key value, e.graph.node? id = some n →
        ((∃ failure, ((Edit.setParam id key value).run e).1 = .error failure) ↔
          C.contains n.module n.type ∧ Unfit (C.definitionOf n).params key value) ∧
        ∀ failure, ((Edit.setParam id key value).run e).1 = .error failure →
          (∃ fault, failure = .invalidParam n.type key fault) ∧
          ((Edit.setParam id key value).run e).2 = e) ∧
      (∀ module type given failure, (addNode module type given s).1 = .error failure →
        (addNode module type given s).2 = s) ∧
      ∀ id key value failure, (setParam id key value s).1 = .error failure →
        (setParam id key value s).2 = s := by
  intro e
  have hg := h.reached.wellFormed
  obtain ⟨hcat, -, hkeeps⟩ : e.Holds C (·.KeepsParams C) := by
    refine .applyAll (fun hc hg hp hf => ?_) ⟨h.catalogue_eq, hg, h.keepsParams hd⟩ steps
    subst hc
    exact Change.keepsParams hd hg hp hf
  refine ⟨⟨h.keepsParams hd, hkeeps⟩, fun module type given => ?_, fun id n key value hn => ?_,
    fun module type given failure hr => ?_, fun id key value failure hr => ?_⟩
  · exact hcat ▸ Edit.addNode_refused module type given e
  · exact hcat ▸ Edit.setParam_refused hn key value
  · exact edit_failure (c := .addNode module type given) hg rfl hr
  · exact edit_failure (f := fun _ => .nothing) (c := .setParam id key value) hg rfl hr

/-- A number is given a text for its value, in the middle of the batch that adds the number. -/
theorem params_keep_schema_start :
    let s := start .default .builtin
    let e := (Step.applyAll [.change (.addNode "Core" "Number" ∅) false] s.openEdit).2
    let n : Node := ⟨⟨0⟩, "Core", "Number", (∅ : Params).insert "value" (.number 0),
      [.output "output"]⟩
    e.graph.node? ⟨0⟩ = some n ∧
      Unfit (Catalogue.builtin.definitionOf n).params "value" (.text "1") ∧
      ∃ fault, (Edit.setParam ⟨0⟩ "value" (.text "1")).run e =
        (.error (.invalidParam "Number" "value" fault), e) := by
  intro s e n
  have h : s.Edited (· = .builtin) := .start _ rfl
  have hn : e.graph.node? ⟨0⟩ = some n := by decide +kernel
  have hu : Unfit (Catalogue.builtin.definitionOf n).params "value" (.text "1") :=
    .inr ⟨.ofDefault "value" (.number 0), by decide +kernel, by decide⟩
  obtain ⟨hrefused, hfailure⟩ := (params_keep_schema Catalogue.builtin_defaultsMatch h
    [.change (.addNode "Core" "Number" ∅) false]).2.2.1 ⟨0⟩ n "value" (.text "1") hn
  obtain ⟨failure, hf⟩ := hrefused.2 ⟨by decide +kernel, hu⟩
  obtain ⟨⟨fault, rfl⟩, hsame⟩ := hfailure failure hf
  exact ⟨hn, hu, fault, Prod.ext hf hsame⟩

/-- A node of an unknown kind is given a parameter that nothing declares, and is not refused. -/
theorem unknown_kind_accepted :
    let given : Params := (∅ : Params).insert "a" (.boolean true)
    given["a"]? = some (.boolean true) ∧
      Unfit (Catalogue.builtin.definition "Nowhere" "Thing").params "a" (.boolean true) ∧
      (addNode "Nowhere" "Thing" given (start .default .builtin)).1 = .ok ⟨0⟩ := by
  intro given
  exact ⟨by decide +kernel, .inl (by decide +kernel), by decide +kernel⟩

end Session

end Dataflow
