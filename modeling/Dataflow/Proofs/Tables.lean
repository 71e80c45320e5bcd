import Std.Data.ExtTreeMap
import Std.Data.ExtTreeSet

/-! Tables and sets that are changed in one pass over a list. -/

namespace Dataflow.Tables

open Std

variable {α β γ : Type} {cmp : α → α → Ordering} [TransCmp cmp]

theorem values_eq (t : ExtTreeMap α β cmp) : t.values = t.toList.map (·.2) := by
  rcases t with ⟨⟨q⟩⟩
  induction q using Quotient.ind with
  | _ m =>
    change m.inner.values = (DTreeMap.Internal.Impl.Const.toList m.inner).map _
    rw [DTreeMap.Internal.Impl.values_eq_map_snd,
      DTreeMap.Internal.Impl.Const.toList_eq_toListModel_map, List.map_map]
    rfl

theorem length_values (t : ExtTreeMap α β cmp) : t.values.length = t.size := by
  rw [values_eq, List.length_map, ExtTreeMap.length_toList]

variable [LawfulEqCmp cmp]

theorem mem_values {t : ExtTreeMap α β cmp} {v : β} : v ∈ t.values ↔ ∃ k : α, t[k]? = some v := by
  simp only [values_eq, List.mem_map, Prod.exists, ExtTreeMap.mem_toList_iff_getElem?_eq_some,
    exists_eq_right]

theorem getElem?_insert [DecidableEq α] (t : ExtTreeMap α β cmp) (k a : α) (v : β) :
    (t.insert k v)[a]? = if a = k then some v else t[a]? := by
  rw [ExtTreeMap.getElem?_insert]
  simp only [LawfulEqCmp.compare_eq_iff_eq, @eq_comm _ k]

theorem getElem?_erase [DecidableEq α] (t : ExtTreeMap α β cmp) (k a : α) :
    (t.erase k)[a]? = if a = k then none else t[a]? := by
  rw [ExtTreeMap.getElem?_erase]
  simp only [LawfulEqCmp.compare_eq_iff_eq, @eq_comm _ k]

theorem getElem?_foldl_erase [DecidableEq α] (f : γ → α) (cs : List γ) (t : ExtTreeMap α β cmp)
    (a : α) :
    (cs.foldl (fun t c => t.erase (f c)) t)[a]? = if a ∈ cs.map f then none else t[a]? := by
  induction cs generalizing t with
  | nil => simp
  | cons c cs ih =>
    rw [List.foldl_cons, ih, getElem?_erase, List.map_cons]
    grind

theorem mem_foldl_erase (f : γ → α) (cs : List γ) (s : ExtTreeSet α cmp) (a : α) :
    a ∈ cs.foldl (fun s c => s.erase (f c)) s ↔ a ∈ s ∧ a ∉ cs.map f := by
  induction cs generalizing s with
  | nil => simp
  | cons c cs ih =>
    rw [List.foldl_cons, ih, ExtTreeSet.mem_erase, List.map_cons, List.mem_cons, ne_eq,
      LawfulEqCmp.compare_eq_iff_eq]
    grind

/-- What a table holds after insertions was inserted, or was there before. -/
theorem of_getElem?_foldl_insert [DecidableEq α] (f : γ → α) (g : γ → β) (cs : List γ)
    (t : ExtTreeMap α β cmp) {a : α} {v : β}
    (h : (cs.foldl (fun t c => t.insert (f c) (g c)) t)[a]? = some v) :
    (∃ c ∈ cs, a = f c ∧ v = g c) ∨ t[a]? = some v := by
  induction cs generalizing t with
  | nil => exact .inr h
  | cons c cs ih =>
    rcases ih _ h with ⟨d, hd, he⟩ | h
    · exact .inl ⟨d, .tail _ hd, he⟩
    · rw [getElem?_insert] at h
      split at h
      · exact .inl ⟨c, .head _, ‹_›, by simpa using h.symm⟩
      · exact .inr h

/-- What was under a key comes back when it is inserted again. -/
theorem insert_insert_of_getElem? [DecidableEq α] {t : ExtTreeMap α β cmp} {k : α} {v : β}
    (h : t[k]? = some v) (w : β) : (t.insert k w).insert k v = t := by
  refine ExtTreeMap.ext_getElem? fun {a} => ?_
  simp only [getElem?_insert]
  split
  · subst a
    exact h.symm
  · rfl

theorem erase_insert_of_getElem? [DecidableEq α] {t : ExtTreeMap α β cmp} {k : α}
    (h : t[k]? = none) (w : β) : (t.insert k w).erase k = t := by
  refine ExtTreeMap.ext_getElem? fun {a} => ?_
  simp only [getElem?_erase, getElem?_insert]
  split
  · subst a
    exact h.symm
  · rfl

theorem mem_of_getElem?_ofList [DecidableEq α] {l : List (α × β)} {a : α} {v : β}
    (h : (ExtTreeMap.ofList l cmp)[a]? = some v) : (a, v) ∈ l := by
  rw [ExtTreeMap.ofList_eq_foldl] at h
  rcases of_getElem?_foldl_insert _ _ l ∅ h with ⟨c, hc, rfl, rfl⟩ | h
  · exact hc
  · simp at h

/-- A table is made again from its list. -/
theorem ofList_toList [DecidableEq α] (t : ExtTreeMap α β cmp) : .ofList t.toList cmp = t :=
  ExtTreeMap.ext_getElem? fun {k} => Option.ext fun v => by
    rw [← ExtTreeMap.mem_toList_iff_getElem?_eq_some (t := t)]
    exact ⟨mem_of_getElem?_ofList,
      ExtTreeMap.getElem?_ofList_of_mem ReflCmp.compare_self ExtTreeMap.distinct_keys_toList⟩

/-- What a filter keeps and what it leaves out are all that there is. -/
theorem size_filter_add_size_filter (t : ExtTreeMap α β cmp) (p : α → β → Bool) :
    (t.filter p).size + (t.filter fun k v => !p k v).size = t.size := by
  have hunion : t.filter p ∪ t.filter (fun k v => !p k v) = t :=
    ExtTreeMap.ext_getElem? fun {k} => by
      rw [ExtTreeMap.getElem?_union, ExtTreeMap.getElem?_filter', ExtTreeMap.getElem?_filter']
      cases t[k]? with
      | none => rfl
      | some v => cases hp : p k v <;> simp [Option.filter, hp]
  have hinter : t.filter p ∩ t.filter (fun k v => !p k v) = ∅ :=
    ExtTreeMap.ext_getElem? fun {k} => by
      simp only [ExtTreeMap.getElem?_inter, ExtTreeMap.mem_iff_isSome_getElem?,
        ExtTreeMap.getElem?_filter', ExtTreeMap.getElem?_empty]
      cases t[k]? with
      | none => rfl
      | some v => cases hp : p k v <;> simp [Option.filter, hp]
  rw [ExtTreeMap.size_add_size_eq_size_union_add_size_inter, hunion, hinter,
    ExtTreeMap.size_empty, Nat.add_zero]

/-! ## Sets -/

@[simp] theorem union_empty (s : ExtTreeSet α cmp) : s ∪ ∅ = s :=
  ExtTreeSet.ext_mem fun {a} => by simp

@[simp] theorem empty_union (s : ExtTreeSet α cmp) : ∅ ∪ s = s :=
  ExtTreeSet.ext_mem fun {a} => by simp

theorem union_assoc (r s t : ExtTreeSet α cmp) : (r ∪ s) ∪ t = r ∪ (s ∪ t) :=
  ExtTreeSet.ext_mem fun {a} => by simp only [ExtTreeSet.mem_union_iff, or_assoc]

theorem mem_insert {s : ExtTreeSet α cmp} {a b : α} : a ∈ s.insert b ↔ a = b ∨ a ∈ s := by
  rw [ExtTreeSet.mem_insert, LawfulEqCmp.compare_eq_iff_eq, @eq_comm _ b]

theorem mem_singleton {a b : α} : a ∈ ({b} : ExtTreeSet α cmp) ↔ a = b := by
  change a ∈ (∅ : ExtTreeSet α cmp).insert b ↔ a = b
  simp only [mem_insert, ExtTreeSet.not_mem_empty, or_false]

theorem insert_eq_union (s : ExtTreeSet α cmp) (a : α) : s.insert a = s ∪ {a} :=
  ExtTreeSet.ext_mem fun {b} => by
    simp only [mem_insert, ExtTreeSet.mem_union_iff, mem_singleton, or_comm]

theorem mem_foldl_insert {as : List α} {s : ExtTreeSet α cmp} {a : α} :
    a ∈ as.foldl (fun s b => s.insert b) s ↔ a ∈ as ∨ a ∈ s := by
  induction as generalizing s with
  | nil => simp
  | cons b as ih =>
    rw [List.foldl_cons, ih, mem_insert, List.mem_cons]
    grind

end Dataflow.Tables
