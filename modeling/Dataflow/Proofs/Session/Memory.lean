import Dataflow.Proofs.Engine.Bystanders
import Dataflow.Proofs.Engine.Types
import Dataflow.Proofs.Session.Reached

/-! What a session remembers is right (`Remembers`): a batch of changes drops all answers that it
may have touched, and the others are as good on the changed graph (`Sound.transfer`). -/

namespace Dataflow

open Memo (Table Key Entry)

/-! ## Answers on a changed graph -/

namespace Engine

variable {e e' : Engine} {P : Query → Prop} {t t' : Table} {q : Query} {k : Key}

theorem placed_of_key? {o : Precedence} (hk : (e.method q).key? = some k) :
    e.placed o q = e.method q := by
  cases q with
  | bound id scope =>
    simp only [method] at hk
    split at hk <;> cases hk
  | _ => rfl

/-- Whether an answer is remembered, and under which key, is seen at the node of the key. -/
theorem method_key?_congr (hs : e'.graph.SameAt e.graph k.node)
    (hk : (e'.method q).key? = some k) : (e.method q).key? = some k := by
  cases q with
  | ports id =>
    obtain rfl : k = .inScope .ports id [] "" := (Option.some.inj (e'.method_key? hk)).symm
    have hid : e'.graph.node? id = e.graph.node? id := hs.node
    simp only [method, ← hid]
    exact hk
  | bound id scope =>
    simp only [method] at hk
    split at hk <;> cases hk
  | deliveredType id key context =>
    simp only [method] at hk ⊢
    split at hk <;> simp_all [Method.key?]
  | _ => exact hk

/-- Answers that have only read nodes at which the graph stays the same stay sound. -/
theorem Sound.transfer {o : Precedence} (h : e.Sound o P t) (ht : t.Rooted)
    (hc : e'.catalogue = e.catalogue) (hl : e'.limit = e.limit)
    (hs : ∀ (k : Key) (en : Entry), t'.entries[k]? = some en →
      t.entries[k]? = some en ∧ ∀ id ∈ en.reads, e'.graph.SameAt e.graph id) :
    e'.Sound o P t' := by
  intro k en hen q hq hk
  obtain ⟨hen, hs⟩ := hs k en hen
  have hk' := method_key?_congr (hs _ (ht k en hen)) hk
  obtain ⟨d, hd⟩ := h k en hen q hq hk'
  rw [← placed_of_key? hk'] at hd
  refine ⟨d, ?_⟩
  rw [← placed_of_key? hk]
  exact filed_congr hc hl hd hs

end Engine

/-! ## Answers of a session -/

namespace Session

variable {s s' : Session} {t : Table}

/-- A session has come to have only answers of another one, on a graph that is the same wherever
these have looked. -/
structure Keeps (s s' : Session) : Prop where
  catalogue : s'.catalogue = s.catalogue
  limit : s'.config.limit = s.config.limit
  entries : ∀ (k : Key) (en : Entry), s'.table.entries[k]? = some en →
    s.table.entries[k]? = some en ∧ ∀ id ∈ en.reads, s'.graph.SameAt s.graph id

theorem Keeps.refl (s : Session) : s.Keeps s :=
  ⟨rfl, rfl, fun _ _ hen => ⟨hen, fun id _ => .refl s.graph id⟩⟩

theorem Keeps.rooted (h : s.Keeps s') (hr : s.table.Rooted) : s'.table.Rooted :=
  fun k en hen => hr k en (h.entries k en hen).1

theorem Keeps.sound {o : Precedence} (h : s.Keeps s') (hr : s.table.Rooted) {K : Query → Prop}
    (hs : s.engine.Sound o K s.table) : s'.engine.Sound o K s'.table :=
  hs.transfer hr h.catalogue h.limit h.entries

theorem keeps_commit {e : Edit} (he : e.Tracks s.graph) : s.Keeps (s.commit e) := by
  unfold Session.commit
  dsimp only
  split
  next hempty =>
    refine ⟨rfl, rfl, fun k en hen => ⟨hen, fun id _ => he.sameAt id ?_⟩⟩
    rw [Std.ExtTreeSet.isEmpty_iff.1 hempty]
    exact Std.ExtTreeSet.not_mem_empty
  next =>
    refine ⟨rfl, rfl, fun k en hen => ?_⟩
    obtain ⟨hen, hids⟩ := Table.entries_invalidate hen
    refine ⟨hen, fun id hid => he.sameAt id fun htouched => ?_⟩
    exact hids id (Std.ExtTreeSet.mem_toList.2 htouched) hid

theorem keeps_editAll (hg : s.graph.WellFormed) (steps : List Step) :
    s.Keeps (editAll steps s).2 := by
  have ht := tracks_openEdit hg steps
  rw [editAll_snd]
  split
  · exact keeps_commit ht
  · rw [abandon_eq ht]
    exact .refl s

/-- Every answer has read its own node; and where types are found by questions about types alone,
the answers about types are those that would be found without a memory. -/
structure Remembers (s : Session) : Prop where
  rooted : s.table.Rooted
  sound : s.catalogue.Typed → s.engine.Sound .last Query.AboutTypes s.table

theorem Remembers.of_empty (h : s.table.entries = ∅) : s.Remembers where
  rooted k en hen := by simp [h] at hen
  sound _ := .of_empty h

theorem Remembers.keeps (h : s.Remembers) (hk : s.Keeps s') : s'.Remembers :=
  ⟨hk.rooted h.rooted, fun hc => hk.sound h.rooted (h.sound (hk.catalogue ▸ hc))⟩

theorem Remembers.perform {α : Type} (h : s.Remembers) (p : Plan α) :
    (perform p s).2.Remembers where
  rooted := Engine.perform_rooted h.rooted
  sound hc :=
    (Engine.typesDomain hc fun _ => id).perform_sound_of_apart Engine.types_apart (h.sound hc)

/-- What holds as long as nothing is remembered, and is kept when answers are dropped (`Keeps`) and
when questions are asked, holds of every session. -/
theorem Reached.induct {I : Session → Prop} (empty : ∀ {s : Session}, s.table.entries = ∅ → I s)
    (keeps : ∀ {s s' : Session}, s.Reached → s.Keeps s' → I s → I s')
    (perform : ∀ {s : Session} {α : Type} (p : Plan α), I s → I (Session.perform p s).2)
    (h : s.Reached) :
    I s := by
  induction h with
  | start config catalogue => exact empty rfl
  | register name m _ _ => exact empty rfl
  | editAll steps hs ih => exact keeps hs (keeps_editAll hs.wellFormed steps) ih
  | load snapshot _ ih =>
    unfold Session.load
    split
    · exact ih
    · exact empty rfl
  | perform p _ ih => exact perform p ih
  | setPending p hs ih => exact keeps hs ⟨rfl, rfl, fun _ _ hen => ⟨hen, fun id _ => .refl _ id⟩⟩ ih

theorem Reached.remembers (h : s.Reached) : s.Remembers :=
  h.induct (.of_empty ·) (fun _ hk h => h.keeps hk) fun p h => h.perform p

end Session

end Dataflow
