import Dataflow.Proofs.Engine.Coherence

/-! A sound table makes no difference: where there is an answer without a memory a run finds it
(`Domain.finds`), and elsewhere a run on one sound table goes as on any other (`Domain.agrees`). -/

namespace Dataflow.Engine

open Memo (Table Key Entry Frame)

/-- Two runs leave the same behind in the innermost frame. -/
def Alongside (t₁ t₁' t₂ t₂' : Table) : Prop :=
  ∃ f : Frame, t₁'.frames = t₁.frames.modifyHead (·.absorb f) ∧
    t₂'.frames = t₂.frames.modifyHead (·.absorb f)

theorem Alongside.trans {t₁ u₁ v₁ t₂ u₂ v₂ : Table} (h : Alongside t₁ u₁ t₂ u₂)
    (h' : Alongside u₁ v₁ u₂ v₂) : Alongside t₁ v₁ t₂ v₂ := by
  obtain ⟨f, h₁, h₂⟩ := h
  obtain ⟨g, h₁', h₂'⟩ := h'
  exact ⟨f.absorb g, by rw [h₁', h₁, Table.modifyHead_absorb],
    by rw [h₂', h₂, Table.modifyHead_absorb]⟩

theorem Alongside.passes {t₁ t₁' t₂ t₂' : Table} {f : Frame} (h₁ : t₁.Passes f t₁')
    (h₂ : t₂.Passes f t₂') : Alongside t₁ t₁' t₂ t₂' :=
  ⟨f, h₁.frames, h₂.frames⟩

variable {o : Precedence} {e : Engine} {P K : Query → Prop} {α : Type} {working : List Key}
  {t t₁ t₂ : Table} {depth : Nat}

/-! ## Where there is an answer without a memory -/

/-- Every question that has an answer within `depth` questions is answered as deep. -/
def Finds (o : Precedence) (e : Engine) (P K : Query → Prop) (depth : Nat) : Prop :=
  ∀ {q : Query} {working : List Key} {t : Table}, P q → e.Sound o K t →
    e.Under o P working (fun d => (e.plain o d q).isSome) → (e.plain o depth q).isSome →
    (e.answer depth working q t).isSome

theorem Finds.plan (hf : e.Finds o P K depth) (hD : e.Domain o P K) {p : Plan α}
    (hw : p.Within P (e.Right o)) (ht : e.Sound o K t)
    (hu : e.Under o P working fun d => (p.run (e.plain o d)).isSome)
    (h : (p.run (e.plain o depth)).isSome) : (p.run (e.answer depth working) t).isSome := by
  induction p generalizing t with
  | done a => rfl
  | ask q next ih =>
    obtain ⟨⟨b, reads⟩, hb⟩ := Option.isSome_iff_exists.1 h
    obtain ⟨a, r, s, hq, hn, -⟩ := Plan.run_ask_some.1 hb
    obtain ⟨hPq, hnext⟩ := hw
    obtain ⟨⟨a', t₁⟩, ha⟩ :=
      Option.isSome_iff_exists.1 (hf hPq ht hu.ask.1 (Option.isSome_iff_exists.2 ⟨_, hq⟩))
    have hout := hD.runs depth hPq ht hu.ask.1 ha
    have hright := hout.right
    obtain rfl := hright _ _ _ hq
    obtain ⟨x, hx⟩ := Option.isSome_iff_exists.1 (ih a' (hnext a' hright) hout.sound
      (hu.ask.2 a' hright) (Option.isSome_iff_exists.2 ⟨_, hn⟩))
    exact Option.isSome_iff_exists.2 ⟨x, run_ask_some.2 ⟨a', t₁, ha, hx⟩⟩

namespace Answers

variable {m : Method α} {plain : Nat → Reading α} {β : Type} {early : Bool} {slot : Slot β}
  {p : Plan β} {view : β → α}

theorem under_framed {p : Plan β} {plain : Nat → Reading (β × NodeSet)}
    (hm : e.Answers o P K (.framed p) plain) (hu : e.Under o P working fun d => (plain d).isSome) :
    e.Under o P working fun d => (p.run (e.plain o d)).isSome := by
  refine (hm.under_read hu).mono fun d hd => ⟨d, Nat.le_refl d, ?_⟩
  simpa only [Method.read, Reading.isSome_andThen] using hd

theorem under_remembered (hm : e.Answers o P K (.remembered early slot p view) plain)
    (hD : e.Domain o P K) (hu : e.Under o P working fun d => (plain d).isSome) :
    e.Under o P (slot.key :: working) fun d => (p.run (e.plain o d)).isSome := by
  refine (hm.under_cons hD rfl hu).mono fun d hd => ⟨d, Nat.le_refl d, ?_⟩
  simpa only [Method.filed, Reading.isSome_andThen] using hd

theorem finds (hm : e.Answers o P K m plain) (hD : e.Domain o P K) (hf : e.Finds o P K depth)
    (ht : e.Sound o K t) (hu : e.Under o P working fun d => (plain d).isSome)
    (h : (m.read (e.plain o depth)).isSome) : (m.work (e.answer depth) working t).isSome := by
  cases m with
  | known b reads => rfl
  | plan p => exact hf.plan hD hm.within ht (hm.under_read hu) h
  | framed p =>
    rw [Method.read, Reading.isSome_andThen] at h
    obtain ⟨⟨b, t₁⟩, hb⟩ := Option.isSome_iff_exists.1
      (hf.plan hD hm.within (t := t.enter) ht (hm.under_framed hu) h)
    exact Option.isSome_iff_exists.2 ⟨_, Option.bind_eq_some_iff.2 ⟨_, hb, rfl⟩⟩
  | remembered early slot p view =>
    suffices ∃ x, remember slot.key slot.onCycle slot.wrap slot.unwrap working
        (fun working => p.run (e.answer depth working)) (t.readAll (slot.early early)) = some x by
      obtain ⟨⟨b, t₁⟩, hb⟩ := this
      exact Option.isSome_iff_exists.2 ⟨_, map_some.2 ⟨b, hb, rfl⟩⟩
    have ht₀ := ht.readAll (slot.early early)
    generalize t.readAll (slot.early early) = t₀ at ht₀
    cases hen : t₀.entries[slot.key]? with
    | some en =>
      obtain ⟨b, hb, -⟩ := hm.hit ht₀ hen
      exact ⟨_, hb⟩
    | none =>
      by_cases hw : slot.key ∈ working
      · exact ⟨_, remember_cycle hen hw⟩
      · rw [Method.read, Reading.isSome_andThen] at h
        obtain ⟨-, hlook⟩ := Table.Passes.lookup_miss hen
        obtain ⟨⟨b, t₂⟩, hb⟩ := Option.isSome_iff_exists.1
          (hf.plan hD hm.within (t := (t₀.lookup slot.key).2.enter.read slot.key.node)
            (ht₀.of_entries ((Table.enter_read_entries ..).trans hlook.entries))
            (hm.under_remembered hD hu) h)
        exact ⟨_, (remember_miss hen hw).2 ⟨t₂, hb, rfl⟩⟩

end Answers

theorem Domain.finds (hD : e.Domain o P K) (depth : Nat) : e.Finds o P K depth := by
  induction depth with
  | zero =>
    intro q working t hP ht hu h
    cases h
  | succ depth ih =>
    intro q working t hP ht hu h
    rw [answer_succ]
    rcases hD.placed hP with hq | ⟨b, reads, d, hq, hd⟩
    · exact (hD.answers hP hq).finds hD ih ht hu (hq ▸ h)
    · rw [hq]
      rfl

/-! ## Where there is none -/

/-- What is answered within `depth` questions on one sound table is answered alike on another. -/
def Agrees (o : Precedence) (e : Engine) (P K : Query → Prop) (depth : Nat) : Prop :=
  ∀ {q : Query} {working : List Key} {t₁ t₂ t₁' : Table} {a : q.Answer}, P q → e.Sound o K t₁ →
    e.Sound o K t₂ → e.Under o P working (fun d => (e.plain o d q).isSome) →
    e.answer depth working q t₁ = some (a, t₁') →
    ∃ k t₂', e.answer k working q t₂ = some (a, t₂') ∧ Alongside t₁ t₁' t₂ t₂'

theorem Agrees.plan (hag : e.Agrees o P K depth) (hD : e.Domain o P K) {p : Plan α}
    (hw : p.Within P (e.Right o)) (ht₁ : e.Sound o K t₁) (ht₂ : e.Sound o K t₂)
    (hu : e.Under o P working fun d => (p.run (e.plain o d)).isSome) {a : α} {t₁' : Table}
    (h : p.run (e.answer depth working) t₁ = some (a, t₁')) :
    ∃ k t₂', p.run (e.answer k working) t₂ = some (a, t₂') ∧ Alongside t₁ t₁' t₂ t₂' := by
  induction p generalizing t₁ t₂ with
  | done b =>
    cases h
    exact ⟨0, t₂, rfl, .passes (.refl _) (.refl t₂)⟩
  | ask q next ih =>
    obtain ⟨b, u₁, hb, hn⟩ := run_ask_some.1 h
    obtain ⟨hPq, hnext⟩ := hw
    obtain ⟨k, u₂, hb₂, hal⟩ := hag hPq ht₁ ht₂ hu.ask.1 hb
    have hout₁ := hD.runs depth hPq ht₁ hu.ask.1 hb
    have hout₂ := hD.runs k hPq ht₂ hu.ask.1 hb₂
    obtain ⟨k', t₂', hn₂, hal'⟩ := ih b (hnext b hout₁.right) hout₁.sound hout₂.sound
      (hu.ask.2 b hout₁.right) hn
    refine ⟨max k k', t₂', run_ask_some.2 ⟨b, u₂, answer_mono (Nat.le_max_left ..) hb₂, ?_⟩,
      hal.trans hal'⟩
    exact run_mono (fun _ _ _ => answer_mono (Nat.le_max_right ..)) hn₂

namespace Answers

variable {m : Method α} {plain : Nat → Reading α} {β : Type} {early : Bool} {slot : Slot β}
  {p : Plan β} {view : β → α}

/-- What has no answer is not in a sound table. -/
theorem not_hit (hm : e.Answers o P K (.remembered early slot p view) plain) (ht : e.Sound o K t)
    (hn : ∀ d, ¬(plain d).isSome) : t.entries[slot.key]? = none := by
  cases hen : t.entries[slot.key]? with
  | none => rfl
  | some en =>
    obtain ⟨d, hd⟩ := hm.of_sound rfl ht hen
    exact absurd ((hm.isSome_succ rfl).2 (Option.isSome_iff_exists.2 ⟨_, hd⟩)) (hn (d + 1))

theorem agrees_framed {p : Plan β} {plain : Nat → Reading (β × NodeSet)}
    (hm : e.Answers o P K (.framed p) plain) (hD : e.Domain o P K) (hag : e.Agrees o P K depth)
    (ht₁ : e.Sound o K t₁) (ht₂ : e.Sound o K t₂)
    (hu : e.Under o P working fun d => (plain d).isSome) {a : β × NodeSet} {t₁' : Table}
    (h : (Method.framed p).work (e.answer depth) working t₁ = some (a, t₁')) :
    ∃ k t₂', (Method.framed p).work (e.answer k) working t₂ = some (a, t₂') ∧
      Alongside t₁ t₁' t₂ t₂' := by
  obtain ⟨⟨b, u₁⟩, hp, h⟩ := Option.bind_eq_some_iff.1 h
  cases h
  have ht₁ : e.Sound o K t₁.enter := ht₁
  have ht₂ : e.Sound o K t₂.enter := ht₂
  obtain ⟨k, u₂, hp₂, f, hf₁, hf₂⟩ := hag.plan hD hm.within ht₁ ht₂ (hm.under_framed hu) hp
  rw [show t₁.enter.frames = .empty :: t₁.frames from rfl, List.modifyHead_cons,
    Frame.empty_absorb] at hf₁
  rw [show t₂.enter.frames = .empty :: t₂.frames from rfl, List.modifyHead_cons,
    Frame.empty_absorb] at hf₂
  obtain ⟨hl₁, hfs₁, -⟩ := Table.leave_frames hf₁
  obtain ⟨hl₂, hfs₂, -⟩ := Table.leave_frames hf₂
  refine ⟨k, u₂.leave.2, Option.bind_eq_some_iff.2 ⟨_, hp₂, ?_⟩, f, hfs₁, hfs₂⟩
  rw [hl₁, ← hl₂]
  rfl

theorem agrees_remembered (hm : e.Answers o P K (.remembered early slot p view) plain)
    (hD : e.Domain o P K) (hag : e.Agrees o P K depth) (ht₁ : e.Sound o K t₁) (ht₂ : e.Sound o K t₂)
    (hu : e.Under o P working fun d => (plain d).isSome) (hn : ∀ d, ¬(plain d).isSome) {a : α}
    {t₁' : Table}
    (h : (Method.remembered early slot p view).work (e.answer depth) working t₁ = some (a, t₁')) :
    ∃ k t₂', (Method.remembered early slot p view).work (e.answer k) working t₂ = some (a, t₂') ∧
      Alongside t₁ t₁' t₂ t₂' := by
  obtain ⟨b, hb, rfl⟩ := map_some.1 h
  suffices ∃ k t₂', remember slot.key slot.onCycle slot.wrap slot.unwrap working
      (fun working => p.run (e.answer k working)) (t₂.readAll (slot.early early)) = some (b, t₂') ∧
      Alongside (t₁.readAll (slot.early early)) t₁' (t₂.readAll (slot.early early)) t₂' by
    obtain ⟨k, t₂', hb₂, hal⟩ := this
    exact ⟨k, t₂', map_some.2 ⟨b, hb₂, rfl⟩,
      .trans (.passes (.readAll t₁ _) (.readAll t₂ _)) hal⟩
  have ht₁ := ht₁.readAll (slot.early early)
  have ht₂ := ht₂.readAll (slot.early early)
  generalize t₁.readAll (slot.early early) = u₁ at hb ht₁
  generalize t₂.readAll (slot.early early) = u₂ at ht₂
  have hen₁ := hm.not_hit ht₁ hn
  have hen₂ := hm.not_hit ht₂ hn
  obtain ⟨-, hlook₁⟩ := Table.Passes.lookup_miss hen₁
  obtain ⟨-, hlook₂⟩ := Table.Passes.lookup_miss hen₂
  have hal := Alongside.passes hlook₁ hlook₂
  by_cases hw : slot.key ∈ working
  · rw [remember_cycle hen₁ hw] at hb
    cases hb
    exact ⟨0, _, remember_cycle hen₂ hw, hal.trans (.passes (.markCyclic _) (.markCyclic _))⟩
  · obtain ⟨v₁, hp, rfl⟩ := (remember_miss hen₁ hw).1 hb
    have ht₁ : e.Sound o K ((u₁.lookup slot.key).2.enter.read slot.key.node) :=
      ht₁.of_entries ((Table.enter_read_entries ..).trans hlook₁.entries)
    have ht₂ : e.Sound o K ((u₂.lookup slot.key).2.enter.read slot.key.node) :=
      ht₂.of_entries ((Table.enter_read_entries ..).trans hlook₂.entries)
    obtain ⟨k, v₂, hp₂, f, hf₁, hf₂⟩ :=
      hag.plan hD hm.within ht₁ ht₂ (hm.under_remembered hD hu) hp
    rw [Table.enter_read_frames, List.modifyHead_cons] at hf₁ hf₂
    exact ⟨k, _, (remember_miss hen₂ hw).2 ⟨v₂, hp₂, rfl⟩,
      hal.trans ⟨_, Table.finish_frames hf₁, Table.finish_frames hf₂⟩⟩

theorem agrees (hm : e.Answers o P K m plain) (hD : e.Domain o P K) (hag : e.Agrees o P K depth)
    (ht₁ : e.Sound o K t₁) (ht₂ : e.Sound o K t₂)
    (hu : e.Under o P working fun d => (plain d).isSome) (hn : ∀ d, ¬(plain d).isSome) {a : α}
    {t₁' : Table} (h : m.work (e.answer depth) working t₁ = some (a, t₁')) :
    ∃ k t₂', m.work (e.answer k) working t₂ = some (a, t₂') ∧ Alongside t₁ t₁' t₂ t₂' := by
  cases m with
  | known b reads =>
    cases h
    exact ⟨0, _, rfl, .passes (.readAll t₁ reads) (.readAll t₂ reads)⟩
  | plan p => exact hag.plan hD hm.within ht₁ ht₂ (hm.under_read hu) h
  | framed p => exact hm.agrees_framed hD hag ht₁ ht₂ hu h
  | remembered early slot p view => exact hm.agrees_remembered hD hag ht₁ ht₂ hu hn h

end Answers

theorem Domain.agrees (hD : e.Domain o P K) (depth : Nat) : e.Agrees o P K depth := by
  induction depth with
  | zero =>
    intro q working t₁ t₂ t₁' a hP ht₁ ht₂ hu h
    cases h
  | succ depth ih =>
    intro q working t₁ t₂ t₁' a hP ht₁ ht₂ hu h
    by_cases hc : ∃ d, (e.plain o d q).isSome
    · obtain ⟨d, hd⟩ := hc
      obtain ⟨⟨b, reads⟩, hb⟩ := Option.isSome_iff_exists.1 hd
      obtain ⟨⟨a', t₂'⟩, h'⟩ := Option.isSome_iff_exists.1 (hD.finds d hP ht₂ hu hd)
      obtain ⟨-, f₁, hf₁, -, hp₁⟩ := hD.runs _ hP ht₁ hu h
      obtain ⟨-, f₂, hf₂, -, hp₂⟩ := hD.runs _ hP ht₂ hu h'
      obtain ⟨rfl, hr₁, hc₁⟩ := hp₁ d b reads hb
      obtain ⟨rfl, hr₂, hc₂⟩ := hp₂ d b reads hb
      obtain rfl : f₁ = f₂ := by
        cases f₁
        cases f₂
        exact congr (congrArg Frame.mk (hr₁.symm.trans hr₂)) (hc₁.trans hc₂.symm)
      exact ⟨d, t₂', h', f₁, hf₁, hf₂⟩
    · have hn (d : Nat) : ¬(e.plain o d q).isSome := fun hd => hc ⟨d, hd⟩
      rw [answer_succ] at h
      rcases hD.placed hP with hq | ⟨b, reads, d, hq, hd⟩
      · obtain ⟨k, t₂', h', hal⟩ := (hD.answers hP hq).agrees hD ih ht₁ ht₂ hu hn h
        exact ⟨k + 1, t₂', (answer_succ ..).symm ▸ h', hal⟩
      · exact absurd (Option.isSome_iff_exists.2 ⟨_, hd⟩) (hn d)

/-! ## Carrying out plans -/

variable {q : Query}

theorem Domain.ask_sound (hD : e.Domain o P K) (hP : P q) (ht : e.Sound o K t) :
    e.Sound o K (e.ask q t).2 := by
  rcases ask_cases e q t with ⟨k, hk⟩ | ⟨-, hk⟩
  · exact (hD.runs k hP ht (.nil _) hk).sound
  · rw [hk]
    exact ht

theorem Domain.ask_right (hD : e.Domain o P K) (hP : P q) (ht : e.Sound o K t) :
    e.Right o q (e.ask q t).1 := by
  rcases ask_cases e q t with ⟨k, hk⟩ | ⟨hn, -⟩
  · exact (hD.runs k hP ht (.nil _) hk).right
  · intro d b reads hb
    have := hD.finds d hP ht (.nil _) (Option.isSome_iff_exists.2 ⟨_, hb⟩)
    rw [hn d] at this
    cases this

/-- On two sound tables a question has the same answer: what is found on the one at some depth is
found on the other, too (`Domain.agrees`), and if nothing is found on either, both are silent. -/
theorem Domain.ask_fst (hD : e.Domain o P K) (hP : P q) (ht₁ : e.Sound o K t₁)
    (ht₂ : e.Sound o K t₂) : (e.ask q t₁).1 = (e.ask q t₂).1 := by
  rcases ask_cases e q t₁ with ⟨k, hk⟩ | ⟨hn₁, hs₁⟩
  · obtain ⟨k₂, t₂', h₂, -⟩ := hD.agrees k hP ht₁ ht₂ (.nil _) hk
    exact (congrArg Prod.fst (ask_eq h₂)).symm
  · rcases ask_cases e q t₂ with ⟨k, hk⟩ | ⟨-, hs₂⟩
    · obtain ⟨k₁, t₁', h₁, -⟩ := hD.agrees k hP ht₂ ht₁ (.nil _) hk
      rw [hn₁ k₁] at h₁
      cases h₁
    · rw [hs₁, hs₂]

theorem Domain.perform_sound (hD : e.Domain o P K) {p : Plan α} (hw : p.Within P (e.Right o))
    (ht : e.Sound o K t) : e.Sound o K (e.perform p t).2 := by
  induction p generalizing t with
  | done a => exact ht
  | ask q next ih =>
    exact ih _ (hw.2 _ (hD.ask_right hw.1 ht)) (hD.ask_sound hw.1 ht)

/-- On two sound tables a plan comes to the same end. -/
theorem Domain.perform_fst (hD : e.Domain o P K) {p : Plan α} (hw : p.Within P (e.Right o))
    (ht₁ : e.Sound o K t₁) (ht₂ : e.Sound o K t₂) : (e.perform p t₁).1 = (e.perform p t₂).1 := by
  induction p generalizing t₁ t₂ with
  | done a => rfl
  | ask q next ih =>
    change (e.perform (next (e.ask q t₁).1) (e.ask q t₁).2).1 =
      (e.perform (next (e.ask q t₂).1) (e.ask q t₂).2).1
    rw [hD.ask_fst hw.1 ht₁ ht₂]
    exact ih _ (hw.2 _ (hD.ask_right hw.1 ht₂)) (hD.ask_sound hw.1 ht₁) (hD.ask_sound hw.1 ht₂)

end Dataflow.Engine
