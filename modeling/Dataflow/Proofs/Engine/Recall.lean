import Dataflow.Proofs.Engine.Once

/-! What was answered once is answered so again.

Where no question comes up again while it is being worked out, every answer that may be remembered
is in the table from then on (`Method.Recalls`). So a plan ends with what it ends with if all that
it asks is looked up in the table that it leaves (`Keeps.run_recalled`). -/

namespace Dataflow

open Memo (Table Key)
open Memo.Table (Books Retains)

variable {α : Type} {C : Contract} {working : List Key} {t t' : Table} {a : α}

/-- The answer is in the table, if answers by the method are remembered. -/
def Method.Recalls (t : Table) : {α : Type} → Method α → α → Prop
  | _, remembered _ slot _ view, a =>
    ∃ en b, t.entries[slot.key]? = some en ∧ slot.unwrap en.answer = some b ∧ view b = a
  | _, _, _ => True

theorem Method.Recalls.retains {m : Method α} (h : m.Recalls t a) (ht : t.Holds Key.Fits)
    (hr : Retains working t t') : m.Recalls t' a := by
  cases m with
  | remembered early slot p view =>
    obtain ⟨en, b, hen, hb, hview⟩ := h
    exact ⟨en, b, hr.entries ht hen, hb, hview⟩
  | _ => trivial

/-- What is in the table stays there when an answer is filed that was not. -/
theorem Method.Recalls.finish {m : Method α} (h : m.Recalls t a) {k : Key}
    (hk : t.entries[k]? = none) (b : Memo.Answer) : m.Recalls (t.finish k b) a := by
  cases m with
  | remembered early slot p view =>
    obtain ⟨en, c, hen, hc, hview⟩ := h
    refine ⟨en, c, ?_, hc, hview⟩
    rcases Table.entries_finish t k b with he | ⟨reads, he⟩
    · exact he ▸ hen
    · rw [he, Tables.getElem?_insert, if_neg]
      · exact hen
      · rintro rfl
        cases hk.symm.trans hen
  | _ => trivial

namespace Engine

/-! ## What is answered is in the table -/

theorem remember_recalls {f : List Key → (q : Query) → Work q.Answer} {slot : Slot α} {p : Plan α}
    (hs : slot.Sorts) (hw : slot.key ∉ working)
    (hp : ∀ {t b t'}, Kept C t → p.run (f (slot.key :: working)) t = some (b, t') →
      ∃ log, Books (slot.key :: working) t log t')
    (ht : Kept C t)
    (h : remember slot.key slot.onCycle slot.wrap slot.unwrap working
      (fun working => p.run (f working)) t = some (a, t')) :
    ∃ en, t'.entries[slot.key]? = some en ∧ slot.unwrap en.answer = some a := by
  cases hen : t.entries[slot.key]? with
  | some en =>
    obtain ⟨b, hb⟩ := Option.isSome_iff_exists.1 (hs.unwrap (ht.2 _ en hen))
    rw [remember_hit hen hb] at h
    cases h
    exact ⟨en, (Table.Passes.lookup_hit hen).2.entries ▸ hen, hb⟩
  | none =>
    obtain ⟨t₁, hrun, rfl⟩ := (remember_miss hen hw).1 h
    have hstart := (Table.enter_read_entries (t.lookup slot.key).2 slot.key.node).trans
      (Table.Passes.lookup_miss hen).2.entries
    obtain ⟨log, hbooks⟩ := hp ⟨ht.1.of_entries hstart, ht.2.of_entries hstart⟩ hrun
    obtain ⟨reads, he⟩ := hbooks.entries_finish hen (slot.wrap a)
    exact ⟨⟨slot.wrap a, reads⟩, by rw [he, Tables.getElem?_insert, if_pos rfl],
      slot.unwrap_wrap a⟩

theorem work_recalls {f : List Key → (q : Query) → Work q.Answer}
    {log : List Key → Query → Table → List Computation}
    (hf : ∀ {ks q t a t'}, C.asks ks q → Kept C t → f ks q t = some (a, t') →
      Books ks t (log ks q t) t' ∧ C.good q a ∧ Kept C t')
    {m : Method α} {Q : α → Prop} (hm : m.Obeys C working Q) (hs : m.Sorts)
    (ho : ∀ k, m.key? = some k → k ∉ working) (ht : Kept C t)
    (h : m.work f working t = some (a, t')) : m.Recalls t' a := by
  cases m with
  | remembered early slot p view =>
    obtain ⟨b, hb, hview⟩ := map_some.1 h
    have hw := ho _ rfl
    obtain ⟨en, hen, hun⟩ := remember_recalls hs hw
      (fun ht hp => ⟨_, run_books hf (hm.work hw) ht hp⟩) ⟨ht.1.readAll _, ht.2.readAll _⟩ hb
    exact ⟨en, b, hen, hun, hview⟩
  | _ => trivial

variable {e : Engine} {d : Nat} {q : Query}

theorem Keeps.recalls (h : e.Keeps C) (ho : e.Once C) {a : q.Answer} (hq : C.asks working q)
    (ht : Kept C t) (hr : e.answer d working q t = some (a, t')) : (e.method q).Recalls t' a := by
  cases d with
  | zero => cases hr
  | succ d =>
    rw [answer_succ] at hr
    exact work_recalls (fun hq ht hr => ⟨h.books ho hq ht hr, h.kept hq ht hr⟩) (h _ _ hq)
      (e.method_sorts q) (fun _ => ho hq) ht hr

/-- A plan ends as it does with answers that are in the table which it leaves. By induction on the
plan: what was answered first stays in the table, whatever the rest of the plan asks
(`Recalls.retains`). -/
theorem Keeps.run_recalled (h : e.Keeps C) (ho : e.Once C) {p : Plan α} {Q : α → Prop}
    (hp : p.Ends (C.asks working) (fun q b => C.good q b ∧ (e.method q).Recalls t' b) Q)
    (ht : Kept C t) (hr : p.run (e.answer d working) t = some (a, t')) : Q a := by
  induction p generalizing t with
  | done b =>
    cases hr
    exact hp
  | ask q next ih =>
    obtain ⟨b, t₁, hq, hn⟩ := run_ask_some.1 hr
    obtain ⟨hgood, ht₁⟩ := h.kept hp.1 ht hq
    have hrest : Retains working t₁ t' :=
      run_keeps (fun _ => .of_eq rfl rfl) .trans answer_retains hn
    exact ih b (hp.2 b ⟨hgood, (h.recalls ho hp.1 ht hq).retains ht₁.2 hrest⟩) ht₁ hn

/-- An answer that was not remembered is what its plan ends with, as it does with answers that are
in the table from then on. -/
theorem Keeps.answer_unrecalled {β : Type} {early : Bool} {slot : Slot β} {p : Plan β}
    {view : β → q.Answer} {Q : β → Prop} {a : q.Answer} (h : e.Keeps C) (ho : e.Once C)
    (hm : e.method q = .remembered early slot p view) (hq : C.asks working q) (ht : Kept C t)
    (hk : t.entries[slot.key]? = none) (hr : e.answer d working q t = some (a, t'))
    (hp : p.Ends (fun _ => True) (fun q b => C.good q b ∧ (e.method q).Recalls t' b) Q) :
    ∃ b, view b = a ∧ Q b := by
  have hobeys := h working q hq
  have hw : slot.key ∉ working := ho hq (hm ▸ rfl)
  rw [hm] at hobeys
  cases d with
  | zero => cases hr
  | succ d =>
    rw [answer_succ, hm] at hr
    obtain ⟨b, hb, hview⟩ := map_some.1 hr
    have hread := (Table.Passes.readAll t (slot.early early)).entries
    obtain ⟨t₁, hrun, rfl⟩ := (remember_miss (hread ▸ hk) hw).1 hb
    have hstart : ((((t.readAll (slot.early early)).lookup slot.key).2.enter).read
        slot.key.node).entries = t.entries :=
      (Table.enter_read_entries ..).trans
        ((Table.Passes.lookup_miss (hread ▸ hk)).2.entries.trans hread)
    have hidle : t₁.entries[slot.key]? = none := by
      have hretains : Retains (slot.key :: working) _ t₁ :=
        run_keeps (fun _ => .of_eq rfl rfl) .trans answer_retains hrun
      exact hretains.idle slot.key List.mem_cons_self (hstart ▸ hk)
    have hends : p.Ends (C.asks (slot.key :: working))
        (fun q b => C.good q b ∧ (e.method q).Recalls t₁ b) fun b => _ ∧ Q b :=
      ((hobeys.work hw).narrow fun _ _ h => h.1).and
        (hp.narrow fun _ _ h => ⟨h.1, h.2.finish hidle _⟩)
    refine ⟨b, hview, (h.run_recalled ho hends ?_ hrun).2⟩
    exact ⟨ht.1.of_entries hstart, ht.2.of_entries hstart⟩

/-! ## What is in the table is answered -/

theorem work_recalled {f : List Key → (q : Query) → Work q.Answer} {m : Method α}
    (hk : m.key?.isSome) (h : m.Recalls t a) : ∃ t', m.work f working t = some (a, t') := by
  cases m with
  | remembered early slot p view =>
    obtain ⟨en, b, hen, hb, hview⟩ := h
    have hen : (t.readAll (slot.early early)).entries[slot.key]? = some en :=
      (Table.Passes.readAll t _).entries ▸ hen
    exact ⟨_, map_some.2 ⟨b, remember_hit hen hb, hview⟩⟩
  | _ => cases hk

/-- What is remembered is the answer. -/
theorem ask_recalled {a : q.Answer} (hk : (e.method q).key?.isSome)
    (h : (e.method q).Recalls t a) : (e.ask q t).1 = a := by
  obtain ⟨t', ht⟩ : ∃ t', (e.method q).work (e.answer 0) [] t = some (a, t') := work_recalled hk h
  rw [ask_eq (d := 1) (by rw [answer_succ]; exact ht)]

end Engine

end Dataflow
