import Dataflow.Proofs.Engine.Transparency
import Dataflow.Proofs.Memo.Entries

/-! What questions of any kind do to a table.

Every answer that is filed has read the node that it is about; and a question that lies outside a
domain, and whose key no question of the domain has (`Apart`), leaves what the domain relies on
sound (`Domain.answer_sound`). -/

namespace Dataflow

open Memo (Table Key Entry Frame)

namespace Engine

variable {α β : Type} {e : Engine} {t t' : Table}

/-- What every question keeps a plan keeps. -/
theorem run_keeps {R : Table → Table → Prop} (refl : ∀ t, R t t)
    (trans : ∀ {t t' t''}, R t t' → R t' t'' → R t t'') {ask : (q : Query) → Work q.Answer}
    (h : ∀ {q t a t'}, ask q t = some (a, t') → R t t') {p : Plan α} {a : α}
    (hp : p.run ask t = some (a, t')) : R t t' := by
  induction p generalizing t with
  | done b =>
    cases hp
    exact refl _
  | ask q next ih =>
    obtain ⟨b, t₁, hb, hn⟩ := run_ask_some.1 hp
    exact trans (h hb) (ih b hn)

variable {working : List Key}

section Remember

variable {key : Key} {onCycle : β} {wrap : β → Memo.Answer} {unwrap : Memo.Answer → Option β}
  {work : List Key → Work β} {b : β}

/-- Either nothing is filed or the answer that was worked out. -/
theorem remember_cases (h : remember key onCycle wrap unwrap working work t = some (b, t')) :
    (∃ f, t.Passes f t') ∨
      ∃ f t₀ t₁, t.Passes f t₀ ∧ work (key :: working) (t₀.enter.read key.node) = some (b, t₁) ∧
        t' = t₁.finish key (wrap b) := by
  obtain ⟨f, hf⟩ := Table.Passes.lookup t key
  unfold remember at h
  dsimp only at h
  split at h
  · cases h
    exact .inl ⟨f, hf⟩
  split at h
  · cases h
    exact .inl ⟨_, hf.trans (.markCyclic _)⟩
  · obtain ⟨⟨b', t₁⟩, hw, h⟩ := Option.bind_eq_some_iff.1 h
    cases h
    exact .inr ⟨f, _, t₁, hf, hw, rfl⟩

theorem remember_grows (h : ∀ {ks t b t'}, work ks t = some (b, t') → t.Grows t')
    (hb : remember key onCycle wrap unwrap working work t = some (b, t')) : t.Grows t' := by
  rcases remember_cases hb with ⟨f, hf⟩ | ⟨f, t₀, t₁, hf, hw, rfl⟩
  · exact hf.grows
  · exact hf.grows.trans (h hw).finish

end Remember

theorem work_grows {f : List Key → (q : Query) → Work q.Answer}
    (h : ∀ {ks q t a t'}, f ks q t = some (a, t') → t.Grows t') {m : Method α} {a : α}
    (hm : m.work f working t = some (a, t')) : t.Grows t' := by
  have run {γ : Type} {ks : List Key} {p : Plan γ} {t t' : Table} {c : γ}
      (hp : p.run (f ks) t = some (c, t')) : t.Grows t' :=
    run_keeps Table.Grows.refl Table.Grows.trans h hp
  cases m with
  | known b reads =>
    cases hm
    exact (Table.Passes.readAll t reads).grows
  | plan p => exact run hm
  | framed p =>
    obtain ⟨⟨b, t₁⟩, hp, hr⟩ := Option.bind_eq_some_iff.1 hm
    cases hr
    exact (run hp).leave
  | remembered early slot p view =>
    obtain ⟨b, hb, -⟩ := map_some.1 hm
    exact (Table.Passes.readAll t _).grows.trans (remember_grows run hb)

theorem answer_grows {depth : Nat} {q : Query} {a : q.Answer}
    (h : e.answer depth working q t = some (a, t')) : t.Grows t' := by
  induction depth generalizing working q t t' with
  | zero => cases h
  | succ depth ih =>
    rw [answer_succ] at h
    exact work_grows ih h

/-- What every answer keeps, every plan that is carried out keeps. -/
theorem perform_keeps {I : Table → Prop}
    (h : ∀ {d q t a t'}, e.answer d [] q t = some (a, t') → I t → I t') {p : Plan α} (ht : I t) :
    I (e.perform p t).2 := by
  have ask (q : Query) {t : Table} (ht : I t) : I (e.ask q t).2 := by
    rcases ask_cases e q t with ⟨k, hk⟩ | ⟨-, hk⟩
    · exact h hk ht
    · rw [hk]
      exact ht
  induction p generalizing t with
  | done a => exact ht
  | ask q next ih => exact ih _ (ask q ht)

theorem perform_rooted {p : Plan α} (ht : t.Rooted) : (e.perform p t).2.Rooted :=
  perform_keeps (fun h => (answer_grows h).rooted) ht

/-! ## Questions outside a domain -/

variable {P : Query → Prop}

/-- No question outside has a key that one inside has. -/
def Apart (P : Query → Prop) : Prop :=
  ∀ {q q' : Query} {k : Key}, P q → q.key? = some k → ¬P q' → q'.key? ≠ some k

/-- No question of the domain is in progress. -/
def Idle (P : Query → Prop) (working : List Key) : Prop :=
  ∀ k ∈ working, ∀ q, P q → q.key? ≠ some k

theorem Idle.cons (h : Idle P working) (hP : Apart P) {q : Query} (hq : ¬P q) {k : Key}
    (hk : (e.method q).key? = some k) : Idle P (k :: working) := by
  intro k' hk' q' hq' hkey
  rcases List.mem_cons.1 hk' with rfl | hk'
  · exact hP hq' hkey hq (e.method_key? hk)
  · exact h k' hk' q' hq' hkey

variable {o : Precedence}

theorem Idle.under (h : Idle P working) (f : Nat → Prop) : e.Under o P working f :=
  .inr fun k hk q hq hkey => absurd (e.method_key? hkey) (h k hk q hq)

/-- An answer under a key that is not of the domain does not count. -/
theorem Sound.finish (h : e.Sound o P t) {k : Key} (hk : ∀ q, P q → q.key? ≠ some k)
    {a : Memo.Answer} {f : Frame} {fs : List Frame} (hf : t.frames = f :: fs) :
    e.Sound o P (t.finish k a) := by
  intro k' en hen q hq hkey
  rw [Table.finish_entries hf] at hen
  split at hen
  · exact h k' en hen q hq hkey
  · rw [Tables.getElem?_insert] at hen
    split at hen
    · subst k'
      exact absurd (e.method_key? hkey) (hk q hq)
    · exact h k' en hen q hq hkey

theorem work_sound {f : List Key → (q : Query) → Work q.Answer}
    (hg : ∀ {ks q t a t'}, f ks q t = some (a, t') → t.Grows t')
    (h : ∀ {ks q t a t'}, Idle P ks → f ks q t = some (a, t') → e.Sound o P t → e.Sound o P t')
    (hw : Idle P working) {m : Method α} (hkey : ∀ {k}, m.key? = some k → Idle P (k :: working))
    {a : α} (hm : m.work f working t = some (a, t')) (ht : e.Sound o P t) : e.Sound o P t' := by
  have run {γ : Type} {ks : List Key} (hks : Idle P ks) {p : Plan γ} {t t' : Table} {c : γ}
      (hp : p.run (f ks) t = some (c, t')) : e.Sound o P t → e.Sound o P t' :=
    run_keeps (R := fun t t' => e.Sound o P t → e.Sound o P t') (fun _ => id)
      (fun h h' => h' ∘ h) (h hks) hp
  cases m with
  | known b reads =>
    cases hm
    exact ht.readAll reads
  | plan p => exact run hw hm ht
  | framed p =>
    obtain ⟨⟨b, t₁⟩, hp, hr⟩ := Option.bind_eq_some_iff.1 hm
    cases hr
    obtain ⟨g, hg⟩ := (run_keeps Table.Grows.refl Table.Grows.trans hg hp).frames
    exact (run hw hp ht).of_entries (Table.leave_frames hg).2.2
  | remembered early slot p view =>
    obtain ⟨b, hb, -⟩ := map_some.1 hm
    have ht := ht.readAll (slot.early early)
    rcases remember_cases hb with ⟨f, hf⟩ | ⟨f, t₀, t₁, hf, hp, rfl⟩
    · exact ht.of_entries hf.entries
    · obtain ⟨g, hg⟩ := (run_keeps Table.Grows.refl Table.Grows.trans hg hp).frames
      rw [Table.enter_read_frames, List.modifyHead_cons] at hg
      refine Sound.finish (run (hkey rfl) hp ?_) (hkey rfl _ List.mem_cons_self) hg
      exact ht.of_entries ((Table.enter_read_entries ..).trans hf.entries)

/-- A question of any kind, asked while none of the domain is in progress. By induction on the
depth: one of the domain leaves the table sound by `Domain.runs`, and the answer to any other is
filed under a key that does not count (`Sound.finish`). -/
theorem Domain.answer_sound (hD : e.Domain o P P) (hP : Apart P) {depth : Nat} {q : Query}
    {a : q.Answer} (hw : Idle P working) (h : e.answer depth working q t = some (a, t'))
    (ht : e.Sound o P t) : e.Sound o P t' := by
  induction depth generalizing working q t t' with
  | zero => cases h
  | succ depth ih =>
    by_cases hq : P q
    · exact (hD.runs _ hq ht (hw.under _) h).sound
    · rw [answer_succ] at h
      exact work_sound answer_grows ih hw (hw.cons hP hq) h ht

theorem Domain.perform_sound_of_apart (hD : e.Domain o P P) (hP : Apart P) {p : Plan α}
    (ht : e.Sound o P t) : e.Sound o P (e.perform p t).2 :=
  perform_keeps (hD.answer_sound hP fun _ h => by cases h) ht

end Engine

end Dataflow
