import Dataflow.Proofs.Engine.Plain

/-! Plans that get the same answers come to the same end (`AlikeInto`). -/

namespace Dataflow

namespace Reading

variable {α β : Type}

theorem bind_congr {x : Reading α} {f g : α → Reading β}
    (h : ∀ a reads, x = some (a, reads) → f a = g a) : x >>= f = x >>= g := by
  refine eq_of_some fun b reads => ?_
  rw [bind_some, bind_some]
  constructor
  · rintro ⟨a, r, s, hx, hf, rfl⟩
    exact ⟨a, r, s, hx, h a r hx ▸ hf, rfl⟩
  · rintro ⟨a, r, s, hx, hg, rfl⟩
    exact ⟨a, r, s, hx, (h a r hx).symm ▸ hg, rfl⟩

end Reading

/-- What feeds a node has the same values in both scopes. -/
structure AlikeInto (f : (q : Query) → Reading q.Answer) (n : Node) (S T : Scope) : Prop where
  context : S.context = T.context
  value : ∀ {key cs reads c}, f (.connectionsInto n.id key) = some (cs, reads) → c ∈ cs →
    f (.value c.src.node S c.src.key) = f (.value c.src.node T c.src.key)

namespace Plan

variable {α β : Type} {f : (q : Query) → Reading q.Answer} {n : Node} {S T : Scope}

theorem run_bind_congr {p p' : Plan α} {k k' : α → Plan β} (hp : p.run f = p'.run f)
    (hk : ∀ a reads, p.run f = some (a, reads) → (k a).run f = (k' a).run f) :
    (p >>= k).run f = (p' >>= k').run f := by
  rw [run_bind, run_bind, ← hp]
  exact Reading.bind_congr hk

theorem run_map_congr {p p' : Plan α} (hp : p.run f = p'.run f) (g : α → β) :
    (g <$> p).run f = (g <$> p').run f :=
  run_bind_congr hp fun _ _ _ => rfl

theorem run_mapM_congr {k k' : α → Plan β} {as : List α}
    (h : ∀ a ∈ as, (k a).run f = (k' a).run f) : (as.mapM k).run f = (as.mapM k').run f := by
  induction as with
  | nil => rfl
  | cons a as ih =>
    rw [List.mapM_cons, List.mapM_cons]
    exact run_bind_congr (h a List.mem_cons_self) fun b _ _ =>
      run_bind_congr (ih fun a ha => h a (List.mem_cons_of_mem _ ha)) fun _ _ _ => rfl

theorem inputValue_congr (h : AlikeInto f n S T) (key : String) :
    (inputValue n.id key S).run f = (inputValue n.id key T).run f := by
  refine run_bind_congr rfl fun cs reads hcs => ?_
  rw [connectionsInto, run_query] at hcs
  cases cs with
  | nil => simp only [h.context]
  | cons c _ =>
    exact (run_query f _).trans ((h.value hcs List.mem_cons_self).trans (run_query f _).symm)

theorem inputValues_congr (h : AlikeInto f n S T) (key : String) :
    (inputValues n.id key S).run f = (inputValues n.id key T).run f := by
  refine run_bind_congr rfl fun cs reads hcs => run_mapM_congr fun c hc => ?_
  rw [connectionsInto, run_query] at hcs
  exact (run_query f _).trans ((h.value hcs hc).trans (run_query f _).symm)

end Plan

end Dataflow
