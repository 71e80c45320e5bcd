import Dataflow.Proofs.Tables
import Dataflow.Scope

/-! Scopes that bind the same iterators to the same places, whatever elements they hold there
(`AgreeOn`). -/

namespace Dataflow.Scope

variable {S T : Scope} {U V : NodeId → Prop} {id x : NodeId} {locals : Locals}

/-- The place of the element that an iterator is bound to. -/
def place? (S : Scope) (id : NodeId) : Option Nat := (S.lookup id).map Local.index

theorem isBound_eq_place? : S.isBound id = (S.place? id).isSome := by
  rw [isBound_eq_isSome, place?, Option.isSome_map]

/-- The scope with some of its iterators, and no others. -/
def only (S : Scope) (keep : NodeId → Bool) : Scope :=
  { S with locals := S.locals.filter fun id _ => keep id }

theorem lookup_only {keep : NodeId → Bool} :
    (S.only keep).lookup x = if keep x then S.lookup x else none := by
  rw [only, lookup, Std.ExtTreeMap.getElem?_filter', lookup]
  cases S.locals[x]? <;> cases keep x <;> rfl

theorem place?_only {keep : NodeId → Bool} :
    (S.only keep).place? x = if keep x then S.place? x else none := by
  rw [place?, lookup_only]
  split <;> rfl

theorem lookup_child_insert (l : Local) : (S.child (locals.insert id l)).lookup x =
    if x = id then some l else (S.child locals).lookup x := by
  rw [lookup_child, lookup_child, Tables.getElem?_insert]
  split <;> rfl

theorem isBound_child_insert {l : Local} : (S.child (locals.insert id l)).isBound x ↔
    x = id ∨ (S.child locals).isBound x := by
  rw [isBound_eq_isSome, isBound_eq_isSome, lookup_child_insert]
  split <;> simp [*]

theorem child_empty (S : Scope) : S.child ∅ = S := by
  refine congrArg (Scope.mk · S.context) (Std.ExtTreeMap.ext_getElem? fun {x} => ?_)
  rw [Std.ExtTreeMap.getElem?_union, Std.ExtTreeMap.getElem?_empty, Option.none_or]

theorem mem_key {p : Memo.Position} : p ∈ S.key ↔ S.place? p.node = some p.index := by
  obtain ⟨n, i⟩ := p
  simp only [key, List.mem_map, Prod.exists, Std.ExtTreeMap.mem_toList_iff_getElem?_eq_some,
    Memo.Position.mk.injEq, place?, lookup, Option.map_eq_some_iff]
  grind

/-- Two scopes agree on some nodes if they bind the same ones to the same places. -/
structure AgreeOn (U : NodeId → Prop) (S T : Scope) : Prop where
  context : S.context = T.context
  place : ∀ id, U id → S.place? id = T.place? id

namespace AgreeOn

theorem refl (U : NodeId → Prop) (S : Scope) : AgreeOn U S S := ⟨rfl, fun _ _ => rfl⟩

theorem symm (h : AgreeOn U S T) : AgreeOn U T S := ⟨h.1.symm, fun id hid => (h.2 id hid).symm⟩

theorem trans {R : Scope} (h : AgreeOn U S T) (h' : AgreeOn U T R) : AgreeOn U S R :=
  ⟨h.1.trans h'.1, fun id hid => (h.2 id hid).trans (h'.2 id hid)⟩

theorem mono (h : AgreeOn U S T) (hV : ∀ id, V id → U id) : AgreeOn V S T :=
  ⟨h.context, fun id hid => h.place id (hV id hid)⟩

theorem isBound (h : AgreeOn U S T) (hid : U id) : S.isBound id = T.isBound id := by
  rw [isBound_eq_place?, isBound_eq_place?, h.place id hid]

theorem child (h : AgreeOn U S T) (locals : Locals) :
    AgreeOn U (S.child locals) (T.child locals) where
  context := h.context
  place id hid := by
    have := h.place id hid
    simp only [place?, lookup_child] at this ⊢
    cases locals[id]? with
    | none => exact this
    | some l => rfl

theorem only (h : AgreeOn U S T) (keep : NodeId → Bool) :
    AgreeOn U (S.only keep) (T.only keep) where
  context := h.context
  place x hx := by rw [place?_only, place?_only, h.place x hx]

/-- Scopes with the same fingerprint, which is `Scope.key`, agree on all nodes. -/
theorem of_key (hc : S.context = T.context) (hk : S.key = T.key) :
    AgreeOn (fun _ => True) S T where
  context := hc
  place id _ := by
    refine Option.ext fun i => ?_
    rw [← mem_key (p := ⟨id, i⟩), ← mem_key (p := ⟨id, i⟩), hk]

theorem of_only {keep : NodeId → Bool} (h : ∀ x, U x → S.isBound x → keep x) :
    AgreeOn U S (S.only keep) where
  context := rfl
  place x hx := by
    rw [place?_only]
    split
    · rfl
    next hk =>
      rw [← Option.not_isSome_iff_eq_none, ← isBound_eq_place?]
      exact fun hb => hk (h x hx hb)

/-- One more iterator makes no difference elsewhere. -/
theorem insert_only {keep : NodeId → Bool} (h : U id → keep id = false) (locals : Locals)
    (l : Local) :
    AgreeOn U ((S.child locals).only keep) ((S.child (locals.insert id l)).only keep) where
  context := rfl
  place x hx := by
    rw [place?_only, place?_only]
    split
    next hk =>
      rw [place?, place?, lookup_child_insert, if_neg]
      rintro rfl
      exact Bool.false_ne_true ((h hx).symm.trans hk)
    next => rfl

end AgreeOn

end Dataflow.Scope
