import Dataflow.Proofs.Engine.Bystanders

/-! Whatever is asked, what is remembered stays as it is, and an answer that is being worked out is
not filed by anything that comes up for it (`Memo.Table.Retains`). -/

namespace Dataflow

open Memo (Table Key Entry)

/-- The answer is of the kind that is filed under keys of this topic. -/
def Memo.Key.Fits (k : Key) : Memo.Answer → Prop
  | .value _ => k.topic = .value
  | .type _ => k.topic = .outputType ∨ k.topic = .deliveredType
  | .ports _ => k.topic = .ports
  | .connections _ => k.topic = .connections

/-- The work has left all remembered answers as they were, in the place of none has it filed
another, and it has filed none under a key of `working`. -/
structure Memo.Table.Retains (working : List Key) (t t' : Table) : Prop where
  fits : t.Holds Key.Fits → t'.Holds Key.Fits
  entries : t.Holds Key.Fits → ∀ {k : Key} {en : Entry}, t.entries[k]? = some en →
    t'.entries[k]? = some en
  superseded : t.Holds Key.Fits → t'.superseded = t.superseded
  idle : ∀ k ∈ working, t.entries[k]? = none → t'.entries[k]? = none

namespace Memo.Table.Retains

variable {working : List Key} {t t' t'' : Table} {k : Key}

theorem of_eq (h : t'.entries = t.entries) (hs : t'.superseded = t.superseded) :
    Retains working t t' where
  fits ht := ht.of_entries h
  entries _ _ _ hen := h ▸ hen
  superseded _ := hs
  idle _ _ hk := h ▸ hk

theorem of_passes {f : Memo.Frame} (h : t.Passes f t') : Retains working t t' :=
  .of_eq h.entries h.superseded

theorem trans (h : Retains working t t') (h' : Retains working t' t'') :
    Retains working t t'' where
  fits ht := h'.fits (h.fits ht)
  entries ht _ _ hen := h'.entries (h.fits ht) (h.entries ht hen)
  superseded ht := (h'.superseded (h.fits ht)).trans (h.superseded ht)
  idle k hw hk := h'.idle k hw (h.idle k hw hk)

theorem weaken (h : Retains (k :: working) t t') : Retains working t t' :=
  ⟨h.fits, h.entries, h.superseded, fun k hw => h.idle k (.tail _ hw)⟩

/-- An answer is filed where there was none before the work on it. -/
theorem finish (h : Retains (k :: working) t t') {a : Answer} (ha : k.Fits a) (hw : k ∉ working)
    (hk : t.Holds Key.Fits → t.entries[k]? = none) : Retains working t (t'.finish k a) := by
  have hsuperseded (ht : t.Holds Key.Fits) : (t'.finish k a).superseded = t.superseded :=
    (superseded_finish (h.idle k List.mem_cons_self (hk ht)) a).trans (h.superseded ht)
  rcases entries_finish t' k a with he | ⟨reads, he⟩
  · exact ⟨fun ht => (h.fits ht).of_entries he, fun ht _ _ hen => he ▸ h.entries ht hen,
      hsuperseded, fun k' hw' hk' => he ▸ h.idle k' (.tail _ hw') hk'⟩
  refine ⟨fun ht => (h.fits ht).finish ha, fun ht k' en hen => ?_, hsuperseded,
    fun k' hw' hk' => ?_⟩
  · rw [he, Tables.getElem?_insert, if_neg]
    · exact h.entries ht hen
    · rintro rfl
      rw [hk ht] at hen
      cases hen
  · rw [he, Tables.getElem?_insert, if_neg]
    · exact h.idle k' (.tail _ hw') hk'
    · rintro rfl
      exact hw hw'

end Memo.Table.Retains

open Memo.Table (Retains)

/-! ## What answering a question leaves as it was -/

/-- What is filed in the slot fits its key, and what fits there can be taken out again. -/
structure Slot.Sorts {α : Type} (slot : Slot α) : Prop where
  wrap : ∀ a, slot.key.Fits (slot.wrap a)
  unwrap : ∀ {a}, slot.key.Fits a → (slot.unwrap a).isSome

namespace Slot

variable {k : Key}

theorem sorts_value (hk : k.topic = .value) : (value k).Sorts where
  wrap _ := hk
  unwrap {a} ha := by cases a <;> simp_all [value, Key.Fits, Memo.Answer.value?]

theorem sorts_type (hk : k.topic = .outputType ∨ k.topic = .deliveredType) : (type k).Sorts where
  wrap _ := hk
  unwrap {a} ha := by cases a <;> simp_all [type, Key.Fits, Memo.Answer.type?]

theorem sorts_ports (hk : k.topic = .ports) : (ports k).Sorts where
  wrap _ := hk
  unwrap {a} ha := by cases a <;> simp_all [ports, Key.Fits, Memo.Answer.ports?]

theorem sorts_connections (hk : k.topic = .connections) : (connections k).Sorts where
  wrap _ := hk
  unwrap {a} ha := by cases a <;> simp_all [connections, Key.Fits, Memo.Answer.connections?]

end Slot

/-- What the method remembers is filed where it fits. -/
def Method.Sorts : {α : Type} → Method α → Prop
  | _, remembered _ slot _ _ => slot.Sorts
  | _, _ => True

namespace Engine

theorem method_sorts (e : Engine) (q : Query) : (e.method q).Sorts := by
  cases q with
  | bound id scope =>
    simp only [method]
    split <;> trivial
  | ports id =>
    simp only [method]
    split
    · trivial
    · exact Slot.sorts_ports rfl
  | connectionsInto id key => exact Slot.sorts_connections rfl
  | connectionsFrom id key => exact Slot.sorts_connections rfl
  | value id scope key => exact Slot.sorts_value rfl
  | outputType id key context => exact Slot.sorts_type (.inl rfl)
  | deliveredType id key context =>
    simp only [method]
    split
    · trivial
    · exact Slot.sorts_type (.inr rfl)
  | _ => trivial

variable {α : Type} {working : List Key} {t t' : Table} {a : α}

theorem remember_retains {slot : Slot α} (hs : slot.Sorts) {work : List Key → Work α}
    (hf : ∀ {t a t'}, work (slot.key :: working) t = some (a, t') →
      Retains (slot.key :: working) t t')
    (h : remember slot.key slot.onCycle slot.wrap slot.unwrap working work t = some (a, t')) :
    Retains working t t' := by
  obtain ⟨fr, hlook⟩ := Table.Passes.lookup t slot.key
  unfold remember at h
  dsimp only at h
  split at h
  next b hb =>
    cases h
    exact .of_passes hlook
  next hmiss =>
    split at h
    next hw =>
      cases h
      exact .of_passes (hlook.trans (.markCyclic _))
    next hw =>
      obtain ⟨⟨b, t₁⟩, hp, h⟩ := Option.bind_eq_some_iff.1 h
      cases h
      have hstart : Retains (slot.key :: working) t
          ((t.lookup slot.key).2.enter.read slot.key.node) :=
        .of_eq ((Table.enter_read_entries ..).trans hlook.entries) hlook.superseded
      refine (hstart.trans (hf hp)).finish (hs.wrap _) hw fun ht => ?_
      -- what is remembered of the right kind is not worked out
      cases hen : t.entries[slot.key]? with
      | none => rfl
      | some en =>
        have hu := hs.unwrap (ht _ en hen)
        rw [(Table.Passes.lookup_hit hen).1, Option.bind_some] at hmiss
        rw [hmiss] at hu
        cases hu

theorem work_retains {f : List Key → (q : Query) → Work q.Answer}
    (hf : ∀ {ks q t a t'}, f ks q t = some (a, t') → Retains ks t t') {m : Method α}
    (hm : m.Sorts) (h : m.work f working t = some (a, t')) : Retains working t t' := by
  have run {γ : Type} {ks : List Key} {p : Plan γ} {t t' : Table} {c : γ}
      (hp : p.run (f ks) t = some (c, t')) : Retains ks t t' :=
    run_keeps (fun _ => .of_eq rfl rfl) .trans hf hp
  cases m with
  | known b reads =>
    cases h
    exact .of_passes (.readAll t reads)
  | plan p => exact run h
  | framed p =>
    obtain ⟨⟨b, t₁⟩, hp, h⟩ := Option.bind_eq_some_iff.1 h
    cases h
    have hp : Retains working t.enter t₁ := run hp
    have hstart : Retains working t t.enter := .of_eq rfl rfl
    exact (hstart.trans hp).trans (.of_eq (Table.leave_entries t₁) (Table.superseded_leave t₁))
  | remembered early slot p view =>
    obtain ⟨b, hb, -⟩ := map_some.1 h
    have hread : Retains working t (t.readAll (slot.early early)) :=
      .of_passes (.readAll t _)
    exact hread.trans (remember_retains hm run hb)

variable {e : Engine}

theorem answer_retains {d : Nat} {q : Query} {a : q.Answer}
    (h : e.answer d working q t = some (a, t')) : Retains working t t' := by
  induction d generalizing working q t t' with
  | zero => cases h
  | succ d ih =>
    rw [answer_succ] at h
    exact work_retains ih (e.method_sorts q) h

/-- Whatever a plan asks, what was remembered before it still is, and everything fits its key. -/
theorem perform_retains (e : Engine) (p : Plan α) (t : Table) :
    Retains [] t (e.perform p t).2 :=
  perform_keeps (fun h ht => ht.trans (answer_retains h)) (.of_eq rfl rfl)

end Engine

end Dataflow
