import Mathlib.Data.List.Induction
import Mathlib.Data.List.Sort
import Dataflow.Fields
import Dataflow.Proofs.Tables

/-! Fields are told by their look-ups (`Sorted.ext`). -/

namespace Dataflow.Fields

variable {α β : Type} {fs gs : Fields α} {key : String} {a : α}

theorem mem_of_lookup (h : fs.lookup key = some a) : (key, a) ∈ fs := by
  obtain ⟨before, after, rfl, -⟩ := List.lookup_eq_some_iff.1 h
  exact List.mem_append_right _ List.mem_cons_self

theorem isSome_lookup : (fs.lookup key).isSome ↔ key ∈ fs.map Prod.fst := by
  rw [List.lookup_isSome_iff, List.mem_map]
  simp only [beq_iff_eq, @eq_comm _ key]

theorem Sorted.pairwise (h : fs.Sorted) : List.Pairwise (fun p q => p.1 < q.1) fs :=
  List.pairwise_map.1 h

theorem Sorted.lookup_iff (h : fs.Sorted) : fs.lookup key = some a ↔ (key, a) ∈ fs := by
  refine ⟨mem_of_lookup, fun hmem => ?_⟩
  obtain ⟨before, after, rfl⟩ := List.append_of_mem hmem
  refine List.lookup_eq_some_iff.2 ⟨before, after, rfl, fun p hp => ?_⟩
  have hlt : p.1 < key := (List.pairwise_append.1 h.pairwise).2.2 p hp _ List.mem_cons_self
  exact bne_iff_ne.2 fun heq => String.lt_irrefl key (heq ▸ hlt)

/-- Lists that ascend by a name are the same if they have the same elements. -/
theorem eq_of_ascending {γ : Type} (name : γ → String) {as bs : List γ}
    (ha : as.Pairwise fun a b => name a < name b) (hb : bs.Pairwise fun a b => name a < name b)
    (hmem : ∀ a, a ∈ as ↔ a ∈ bs) : as = bs := by
  have : Std.Irrefl fun a b : γ => name a < name b := ⟨fun _ => String.lt_irrefl _⟩
  have : Std.Antisymm fun a b : γ => name a < name b :=
    ⟨fun _ _ hab hba => absurd hab (String.lt_asymm hba)⟩
  exact ha.eq_of_mem_iff hb hmem

/-- Sorted fields are the same if all names have the same field. -/
theorem Sorted.ext (hf : fs.Sorted) (hg : gs.Sorted)
    (h : ∀ key, fs.lookup key = gs.lookup key) : fs = gs := by
  refine eq_of_ascending Prod.fst hf.pairwise hg.pairwise fun p => ?_
  rw [← hf.lookup_iff, ← hg.lookup_iff, h]

/-- Sorted fields that have the same names have them in the same order. -/
theorem Sorted.names_eq {gs : Fields β} (hf : fs.Sorted) (hg : gs.Sorted)
    (h : ∀ key, key ∈ fs.map Prod.fst ↔ key ∈ gs.map Prod.fst) :
    fs.map Prod.fst = gs.map Prod.fst :=
  eq_of_ascending id hf hg h

/-! ## The names on either side -/

theorem mem_unionNames {gs : Fields β} :
    key ∈ unionNames fs gs ↔ (fs.lookup key).isSome ∨ (gs.lookup key).isSome := by
  rw [unionNames, Std.ExtTreeSet.mem_toList, Std.ExtTreeSet.mem_ofList, List.contains_iff_mem,
    List.mem_append, isSome_lookup, isSome_lookup]

theorem pairwise_unionNames (fs : Fields α) (gs : Fields β) :
    (unionNames fs gs).Pairwise (· < ·) := by
  let names : Std.ExtTreeSet String := .ofList (fs.map Prod.fst ++ gs.map Prod.fst) compare
  exact (Std.ExtTreeSet.ordered_toList (t := names)).imp fun h => compareOfLessAndEq_eq_lt.1 h

/-! ## Fields from a list -/

theorem sorted_toList (t : Std.ExtTreeMap String α compare) : Sorted t.toList :=
  List.pairwise_map.2 <| (Std.ExtTreeMap.ordered_keys_toList (t := t)).imp fun {p q} h =>
    compareOfLessAndEq_eq_lt.1 (h : compareOfLessAndEq p.1 q.1 = .lt)

theorem sorted_ofList (fs : List (String × α)) : (ofList fs).Sorted := sorted_toList _

theorem lookup_toList (t : Std.ExtTreeMap String α compare) (key : String) :
    t.toList.lookup key = t[key]? :=
  Option.ext fun _ => (sorted_toList t).lookup_iff.trans
    Std.ExtTreeMap.mem_toList_iff_getElem?_eq_some

/-- Of two fields with one name the later counts, so that looking one up goes from the end. -/
theorem lookup_ofList (fs : List (String × α)) (key : String) :
    (ofList fs).lookup key = fs.reverse.lookup key := by
  rw [ofList, lookup_toList, Std.ExtTreeMap.ofList_eq_foldl]
  induction fs using List.reverseRecOn with
  | nil => exact Std.ExtTreeMap.getElem?_empty
  | append_singleton fs p ih =>
    rw [List.foldl_append, List.foldl_cons, List.foldl_nil, Tables.getElem?_insert, ih,
      List.reverse_append, List.reverse_singleton, List.singleton_append, List.lookup_cons]
    cases h : key == p.1 with
    | true => rw [if_pos (eq_of_beq h)]
    | false => rw [if_neg (ne_of_beq_false h)]

theorem mem_names_ofList {fs : List (String × α)} :
    key ∈ (ofList fs).map Prod.fst ↔ key ∈ fs.map Prod.fst := by
  rw [← isSome_lookup, lookup_ofList, isSome_lookup, List.map_reverse, List.mem_reverse]

variable {γ : Type} {cs : List γ} {rank : γ → Nat} {field? : γ → Option (String × α)}

/-- Of the fields that are made from things in descending order, the first one of a name is made
from the highest thing that makes one. -/
theorem lookup_filterMap (hcs : cs.Pairwise fun c d => rank d < rank c) :
    (cs.filterMap field?).lookup key = some a ↔ ∃ c ∈ cs, field? c = some (key, a) ∧
      ∀ d ∈ cs, ∀ b, field? d = some (key, b) → d ≠ c → rank d < rank c := by
  induction cs with
  | nil => simp
  | cons c cs ih =>
    obtain ⟨hc, hcs⟩ := List.pairwise_cons.1 hcs
    by_cases hkey : ∃ b, field? c = some (key, b)
    · obtain ⟨b, hb⟩ := hkey
      rw [List.filterMap_cons_some hb, List.lookup_cons_self]
      constructor
      · rintro ⟨⟩
        exact ⟨c, List.mem_cons_self, hb, fun d hd _ _ hne =>
          hc d ((List.mem_cons.1 hd).resolve_left hne)⟩
      · rintro ⟨d, hd, ha, hlast⟩
        rcases List.mem_cons.1 hd with rfl | hd
        · cases hb.symm.trans ha
          rfl
        · have hlt := hc d hd
          exact absurd (hlast c List.mem_cons_self b hb fun heq => Nat.ne_of_lt hlt (heq ▸ rfl))
            (Nat.lt_asymm hlt)
    · have hskip : ((c :: cs).filterMap field?).lookup key = (cs.filterMap field?).lookup key := by
        rw [List.filterMap_cons]
        grind
      rw [hskip, ih hcs]
      grind

theorem lookup_ofList_filterMap (hcs : cs.Pairwise fun c d => rank c < rank d) :
    (ofList (cs.filterMap field?)).lookup key = some a ↔ ∃ c ∈ cs, field? c = some (key, a) ∧
      ∀ d ∈ cs, ∀ b, field? d = some (key, b) → d ≠ c → rank d < rank c := by
  rw [lookup_ofList, ← List.filterMap_reverse, lookup_filterMap (List.pairwise_reverse.2 hcs)]
  simp only [List.mem_reverse]

end Dataflow.Fields
