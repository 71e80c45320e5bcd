import Dataflow.Proofs.Engine.Meeting
import Dataflow.Proofs.Engine.Unbroken

/-! What one more connection does to the types of a graph.

Let the types fit along all connections of the new graph that are contested. Going up from the first
nodes on, what a node produces then has the shape of what was expected of it before
(`Rewired.produced_fits`), for a change of what goes into a pair or an object is not seen in its
shape. Going down from the last nodes on, what has this shape fits (`Rewired.matches_from`). So the
types fit along all connections (`Rewired.all_match`). -/

namespace Dataflow

open NodeDefinition ValueType
open Relation (ReflTransGen TransGen)

namespace Engine

/-- With one connection more, whose ends fit as those of all others do. -/
structure Rewired (e e' : Engine) (c : Connection) : Prop where
  before : e.Proper
  after : e'.Proper
  graph : e'.graph = e.graph.joined c
  fresh : e.graph.connection? c.id = none
  matched : ∀ {k d}, e'.graph.connection? k = some d → e.Matches d

variable {e e' : Engine} {c d : Connection} {id : NodeId} {k : ConnectionId} {key : String}
  {n : Node}

namespace Rewired

variable (h : Rewired e e' c)

include h

theorem node? (id : NodeId) : e'.graph.node? id = e.graph.node? id := by
  rw [h.graph, Graph.node?_joined]

theorem definition (n : Node) : e'.definition n = e.definition n := by
  rw [Engine.definition, Engine.definition, h.after.catalogue, h.before.catalogue]

theorem takes (hd : e'.graph.connection? k = some d) :
    ∃ n, e.graph.node? d.dest.node = some n ∧ Takes (e.definition n) d.dest.key := by
  obtain ⟨n, hn, ht, -⟩ := h.after.takes hd
  exact ⟨n, (h.node? _).symm.trans hn, h.definition n ▸ ht⟩

theorem connection?_cases (hd : e'.graph.connection? k = some d) :
    d = c ∨ e.graph.connection? k = some d := by
  rw [h.graph] at hd
  exact (Graph.connection?_joined_cases hd).imp_left And.right

theorem connection?_of_before (hd : e.graph.connection? k = some d) :
    e'.graph.connection? k = some d := by
  rw [h.graph, Graph.connection?_joined, if_neg]
  · exact hd
  · rintro rfl
    cases h.fresh.symm.trans hd

theorem connection?_new : e'.graph.connection? c.id = some c := by
  rw [h.graph, Graph.connection?_joined, if_pos rfl]

/-- The connections are the same, apart from the new one. -/
theorem connection?_iff (hne : d ≠ c) :
    e'.graph.connection? k = some d ↔ e.graph.connection? k = some d :=
  ⟨fun hd => (h.connection?_cases hd).resolve_left hne, h.connection?_of_before⟩

theorem connectionsInto (hne : c.dest.node ≠ id) (key : String) :
    e'.graph.connectionsInto id key = e.graph.connectionsInto id key := by
  refine h.after.wellFormed.connectionsInto_congr h.before.wellFormed fun d => ?_
  rw [h.after.wellFormed.mem_connectionsInto, h.before.wellFormed.mem_connectionsInto]
  exact and_congr_left fun hd => h.connection?_iff fun heq => hne (heq ▸ hd.1)

theorem connectionsFrom (hc : c ∉ e'.graph.connectionsFrom id key) :
    e'.graph.connectionsFrom id key = e.graph.connectionsFrom id key := by
  refine h.after.wellFormed.connectionsFrom_congr h.before.wellFormed fun d => ?_
  rw [h.after.wellFormed.mem_connectionsFrom] at hc ⊢
  rw [h.before.wellFormed.mem_connectionsFrom]
  refine and_congr_left fun hd => h.connection?_iff ?_
  rintro rfl
  exact hc ⟨h.connection?_new, hd⟩

/-! ## What stays -/

/-- Nothing changes at nodes that the new connection does not lead to. -/
theorem produced_of_not_fed (hr : ¬ReflTransGen e'.graph.Feeds c.dest.node id) (key : String) :
    e'.produced id key = e.produced id key := by
  induction id using (h.after.acyclic.wellFounded h.after.wellFormed).induction
    generalizing key with
  | _ id ih =>
    rw [produced, produced, h.after.reply_outputType, h.before.reply_outputType]
    cases hn : e.graph.node? id with
    | none => rw [eval_outputTypePlan_none hn, eval_outputTypePlan_none ((h.node? id).trans hn)]
    | some n =>
      rw [eval_outputTypePlan hn, eval_outputTypePlan ((h.node? id).trans hn), h.definition]
      obtain rfl := h.before.wellFormed.node_id hn
      refine (h.before.all Catalogue.builtin_inferred n.module n.type).outputType
        ⟨fun id => ?_, fun key => ?_, fun {key d} hd => ?_⟩ key
      · rw [reply_node, reply_node, h.node?]
      · rw [reply_connectionsInto, reply_connectionsInto]
        exact h.connectionsInto (fun heq : c.dest.node = n.id => hr (heq ▸ .refl)) key
      · rw [reply_connectionsInto] at hd
        have hf := h.after.wellFormed.feeds_of_mem_connectionsInto hd
        exact ih _ hf (fun hsrc => hr (hsrc.tail hf)) _

/-- In particular at the node where it starts. -/
theorem produced_src (key : String) : e'.produced c.src.node key = e.produced c.src.node key := by
  refine h.produced_of_not_fed (fun hr => ?_) key
  have hnew : e'.graph.Feeds c.src.node c.dest.node := h.graph ▸ Graph.joined_feeds
  exact h.after.acyclic _ (.head' hnew hr)

/-! ## Shapes -/

/-- What was produced has the shape of what was expected of it. -/
theorem shapes_before (hd : e'.graph.connection? k = some d) :
    Shapes (e.expected d.dest.node d.dest.key) (e.produced d.src.node d.src.key) := by
  obtain ⟨n, hn, ht⟩ := h.takes hd
  have hj := Joins.of_unifies (h.before.regular_delivered ..) (h.before.regular_expected hn ht)
    (h.matched hd)
  exact ((h.before.joins_delivered (h.matched hd).delivered_ok).shapes_left hj.shapes).symm

/-- What has the shape of what was delivered has that of what was expected. At the new connection
nothing was delivered, but there nothing has changed. -/
theorem shapes_of_delivered (hd : e'.graph.connection? k = some d)
    (hs : (e.delivered d.src.node d.src.key).isMismatch = false →
      Shapes (e.delivered d.src.node d.src.key) (e'.produced d.src.node d.src.key)) :
    Shapes (e.expected d.dest.node d.dest.key) (e'.produced d.src.node d.src.key) := by
  rcases h.connection?_cases hd with rfl | hold
  · exact h.produced_src _ ▸ h.shapes_before hd
  · have hm := (h.matched hd).delivered_ok
    exact h.before.shapes_delivered (h.before.wellFormed.mem_from hold) hm (hs hm)

/-! ## Going up -/

section Contested

variable (hcontested : ∀ {k d}, e'.graph.connection? k = some d → e'.Contested d → e'.Matches d)

include hcontested

section Output

variable (hn : e.graph.node? id = some n)
  (hin : ∀ b ∈ e'.graph.connectionsInto id "input",
    ¬HasMismatch (e'.produced b.src.node b.src.key) ∧
      Shapes (e.expected id "input") (e'.produced b.src.node b.src.key))

include hn hin

/-- What comes in comes to something, and it has the shape of what was expected. -/
theorem gathered_fits (hkind : e.definition n = .array ∨ TakesOne (e.definition n)) :
    (e'.gathered id).isMismatch = false ∧ Shapes (e.expected id "input") (e'.gathered id) := by
  have hn' := (h.node? id).trans hn
  have hkind' := (h.definition n).symm ▸ hkind
  have hok : (e'.gathered id).isMismatch = false := by
    cases hinto : e'.graph.connectionsInto id "input" with
    | nil =>
      rw [gathered, incoming, hinto]
      rfl
    | cons b bs =>
      have hb : b ∈ e'.graph.connectionsInto id "input" := hinto ▸ List.mem_cons_self
      obtain ⟨hk, rfl, hkey⟩ := h.after.wellFormed.mem_connectionsInto.1 hb
      have hsource := (clean_of_not_hasMismatch (hin b hb).1).isMismatch
      by_cases hc : e'.Contested b
      · rcases hkind' with harray | h1
        · exact h.after.gathered_ok_of_matches hn' (harray ▸ .array) hb (hcontested hk hc)
        · exact h.after.gathered_of_single hn' h1 hb ▸ hsource
      · exact h.after.gathered_of_not_contested hk hc hn' hkey hkind' ▸ hsource
  exact ⟨hok, shapes_unifyAll (h.after.regular_incoming id) hok
    (List.forall_mem_map.2 fun b hb => (hin b hb).2)⟩

/-- Where arrays are made, what is produced is no mismatch, and has the shape of what was delivered:
both are arrays, of what comes in and of what was expected. -/
theorem makesArray_fits (hmakes : MakesArray (e.definition n))
    (hkind : e.definition n = .array ∨ TakesOne (e.definition n)) :
    (e'.produced id "output").isMismatch = false ∧
      ((e.delivered id "output").isMismatch = false →
        Shapes (e.delivered id "output") (e'.produced id "output")) := by
  have hp := h.after.produced_makesArray ((h.node? id).trans hn)
    ((h.definition n).symm ▸ hmakes) "output"
  refine ⟨hp ▸ rfl, fun hm => ?_⟩
  rw [h.before.delivered_makesArray hn hmakes hm, hp]
  exact .array (h.gathered_fits hcontested hn hin hkind).2

/-- So it is at an iterator, which expected arrays of what it delivered. -/
theorem iterate_fits (hdef : e.definition n = .iterate) :
    (e'.produced id "output").isMismatch = false ∧
      ((e.delivered id "output").isMismatch = false →
        Shapes (e.delivered id "output") (e'.produced id "output")) := by
  have hn' := (h.node? id).trans hn
  have hdef' : e'.definition n = .iterate := (h.definition n).trans hdef
  have hwhole := h.after.gathered_whole_of_single (fun b hb => (hin b hb).1) hn'
    (hdef' ▸ by decide)
  have hg := (h.gathered_fits hcontested hn hin (.inr (hdef ▸ by decide))).2
  rw [h.before.expected_iterate hn hdef] at hg
  rw [h.after.produced_iterate hn' hdef', if_neg (by decide)]
  rcases shapes_array hg with hopen | ⟨u, hu, hshape⟩
  · rw [hopen]
    exact ⟨rfl, fun _ => .right⟩
  · rw [hu, hasMismatch_array] at hwhole
    rw [hu, elementType_array]
    exact ⟨(clean_of_not_hasMismatch hwhole).isMismatch, fun _ => hshape⟩

/-- So what the node produces is no mismatch, and has the shape of what was expected of it. -/
theorem output_fits (hd : e'.graph.connection? k = some d) (hsrc : d.src.node = id) :
    (e'.produced id d.src.key).isMismatch = false ∧
      Shapes (e.expected d.dest.node d.dest.key) (e'.produced id d.src.key) := by
  subst hsrc
  have hn' := (h.node? _).trans hn
  have hbefore := h.shapes_before hd
  have hafter := h.shapes_of_delivered hd
  obtain ⟨m, hm, hg⟩ := h.after.gives hd
  obtain ⟨m', hm', o, ho, -⟩ := h.after.exists_source hd
  cases hn'.symm.trans hm
  cases hn'.symm.trans hm'
  rw [Node.sources, h.after.ports hn'] at ho
  have hb : Builtin (e.definition n) := h.before.all Catalogue.builtin_all n.module n.type
  rw [h.definition] at hg ho
  generalize d.src.key = key at hg hbefore hafter ⊢
  generalize hdef : e.definition n = def' at hb hg ho
  have hdef' : e'.definition n = def' := (h.definition n).trans hdef
  cases hg with
  | index =>
    rw [h.before.produced_iterate hn hdef, if_pos rfl] at hbefore
    rw [h.after.produced_iterate hn' hdef', if_pos rfl]
    exact ⟨rfl, hbefore⟩
  | output =>
    cases hb with
    | literal kind =>
      rw [h.before.produced_literal hn hdef] at hbefore
      rw [h.after.produced_literal hn' hdef']
      exact ⟨by cases kind <;> rfl, hbefore⟩
    | array =>
      exact (h.makesArray_fits hcontested hn hin (hdef ▸ .array) (.inl hdef)).imp_right hafter
    | iterate => exact (h.iterate_fits hcontested hn hin hdef).imp_right hafter
    | collect =>
      exact (h.makesArray_fits hcontested hn hin (hdef ▸ .collect)
        (.inr (hdef ▸ by decide))).imp_right hafter
    | object =>
      obtain ⟨fields, hf⟩ := h.before.produced_object hn hdef "output"
      obtain ⟨fields', hf'⟩ := h.after.produced_object hn' hdef' "output"
      rw [hf']
      exact ⟨rfl, (hf ▸ hbefore).object_any fields'⟩
    | pair =>
      rw [h.before.produced_pair hn hdef] at hbefore
      rw [h.after.produced_pair hn' hdef']
      exact ⟨rfl, hbefore.pair_any _⟩
    | arithmetic op =>
      rw [h.before.produced_arithmetic hn hdef] at hbefore
      rw [h.after.produced_arithmetic hn' hdef']
      exact ⟨rfl, hbefore⟩
    | notFound => cases ho

end Output

/-- From the first nodes on, what a node produces has no mismatch in it, and has the shape of what
was expected of it before. -/
theorem produced_fits (hp : e'.graph.KeepsParams e'.catalogue)
    (hd : e'.graph.connection? k = some d) :
    ¬HasMismatch (e'.produced d.src.node d.src.key) ∧
      Shapes (e.expected d.dest.node d.dest.key) (e'.produced d.src.node d.src.key) := by
  generalize hid : d.src.node = id
  induction id using (h.after.acyclic.wellFounded h.after.wellFormed).induction
    generalizing k d with
  | _ id ih =>
    obtain ⟨n, hn', o, ho, hkey⟩ := h.after.exists_source hd
    rw [hid] at hn'
    have hn := (h.node? id).symm.trans hn'
    have hin : ∀ b ∈ e'.graph.connectionsInto id "input",
        ¬HasMismatch (e'.produced b.src.node b.src.key) ∧
          Shapes (e.expected id "input") (e'.produced b.src.node b.src.key) := by
      intro b hb
      have hf := h.after.wellFormed.feeds_of_mem_connectionsInto hb
      obtain ⟨hb, hnode, hbkey⟩ := h.after.wellFormed.mem_connectionsInto.1 hb
      exact hnode ▸ hbkey ▸ ih _ hf hb rfl
    obtain ⟨hok, hshape⟩ := h.output_fits hcontested hn hin hd hid
    refine ⟨?_, hshape⟩
    rw [← hkey] at hok ⊢
    refine h.after.produced_whole_of hp hn' ho (fun b hb => (hin b hb).1) (fun hmakes => ?_) hok
    refine (h.gathered_fits hcontested hn hin ?_).1
    rw [h.definition] at hmakes
    generalize e.definition n = def' at hmakes ⊢
    cases hmakes with
    | array => exact .inl rfl
    | collect => exact .inr (by decide)

/-! ## Going down -/

section After

variable (hafter : ∀ {key}, Clean (e'.produced id key) →
  (∀ g ∈ e'.graph.connectionsFrom id key,
    Shapes (e.expected g.dest.node g.dest.key) (e'.produced id key)) →
  ∀ g ∈ e'.graph.connectionsFrom id key, e'.Matches g)

include hafter

omit hcontested in
/-- If it is known what fits after a node, what it produces unifies with what it delivers. -/
theorem delivered_fits (hp : Clean (e'.produced id key))
    (hs : (e.delivered id key).isMismatch = false →
      Shapes (e.delivered id key) (e'.produced id key)) :
    Clean (e'.delivered id key) ∧
      (ValueType.unify (e'.produced id key) (e'.delivered id key)).isMismatch = false := by
  have hmatch := hafter hp fun g hg => by
    obtain ⟨hk, rfl, rfl⟩ := h.after.wellFormed.mem_connectionsFrom.1 hg
    exact h.shapes_of_delivered hk hs
  have hclean := h.after.clean_delivered hp hmatch
  exact ⟨hclean, (h.after.comesTo_delivered hclean.isMismatch).unifies_left hp⟩

omit hcontested in
/-- Where arrays are made, what comes in unifies with what is expected, for an array of the one is
produced and an array of the other delivered (`delivered_fits`). -/
theorem makesArray_expects (hn : e.graph.node? id = some n) (hmakes : MakesArray (e.definition n))
    {p : ValueType} (hgathered : e'.gathered id = p) (hp : Clean p)
    (hs : Shapes (e.expected id "input") p) :
    Clean (e'.expected id "input") ∧
      (ValueType.unify p (e'.expected id "input")).isMismatch = false := by
  have hn' := (h.node? id).trans hn
  have hmakes' := (h.definition n).symm ▸ hmakes
  have hq := h.after.produced_makesArray hn' hmakes' "output"
  rw [hgathered] at hq
  obtain ⟨hclean, hok⟩ := h.delivered_fits hafter (hq ▸ clean_array.2 hp) fun hm => by
    rw [h.before.delivered_makesArray hn hmakes hm, hq]
    exact .array hs
  have hdelivered := h.after.delivered_makesArray hn' hmakes' hclean.isMismatch
  rw [hdelivered, clean_array] at hclean
  rw [hdelivered, hq] at hok
  exact ⟨hclean, unify_array_ok hok⟩

omit hcontested in
/-- So it is at an iterator: if an array comes in, its elements are what is produced. -/
theorem iterate_expects (hn : e.graph.node? id = some n) (hdef : e.definition n = .iterate)
    {p : ValueType} (hgathered : e'.gathered id = p) (hp : Clean p)
    (hs : Shapes (e.expected id "input") p) :
    Clean (e'.expected id "input") ∧
      (ValueType.unify p (e'.expected id "input")).isMismatch = false := by
  have hn' := (h.node? id).trans hn
  have hdef' : e'.definition n = .iterate := (h.definition n).trans hdef
  have hq := h.after.produced_iterate hn' hdef' "output"
  rw [if_neg (by decide), hgathered] at hq
  rw [h.before.expected_iterate hn hdef] at hs
  rw [h.after.expected_iterate hn' hdef', clean_array]
  rcases shapes_array hs with rfl | ⟨u, rfl, hshape⟩
  · have hq : e'.produced id "output" = unresolved := hq
    obtain ⟨hclean, -⟩ := h.delivered_fits hafter (hq ▸ clean_unresolved) fun _ =>
      hq.symm ▸ Shapes.right
    exact ⟨hclean, unify_unresolved_left _ ▸ rfl⟩
  · rw [elementType_array] at hq
    obtain ⟨hclean, hok⟩ := h.delivered_fits hafter (hq ▸ clean_array.1 hp) fun _ =>
      hq.symm ▸ hshape
    rw [hq] at hok
    exact ⟨hclean, (unify_array u _).1 hok ▸ rfl⟩

omit hcontested in
/-- So, if it is known what fits after a node, what comes in at it unifies with what is expected. -/
theorem expected_fits (hd : e'.graph.connection? k = some d) (hdest : d.dest.node = id)
    (ha : ¬e'.Contested d) (hp : Clean (e'.produced d.src.node d.src.key))
    (hs : Shapes (e.expected d.dest.node d.dest.key) (e'.produced d.src.node d.src.key)) :
    Clean (e'.expected d.dest.node d.dest.key) ∧ (ValueType.unify (e'.produced d.src.node d.src.key)
      (e'.expected d.dest.node d.dest.key)).isMismatch = false := by
  subst hdest
  obtain ⟨n, hn, ht⟩ := h.takes hd
  have hn' := (h.node? _).trans hn
  have hgathered := h.after.gathered_of_not_contested hd ha hn'
  rw [h.definition] at hgathered
  generalize e'.produced d.src.node d.src.key = p at hp hs hgathered ⊢
  generalize d.dest.key = key at ht hs hgathered ⊢
  generalize hdef : e.definition n = def' at ht hgathered
  have hdef' : e'.definition n = def' := (h.definition n).trans hdef
  cases ht with
  | array =>
    exact h.makesArray_expects hafter hn (hdef ▸ .array) (hgathered rfl (.inl rfl)) hp hs
  | collect =>
    exact h.makesArray_expects hafter hn (hdef ▸ .collect) (hgathered rfl (.inr (by decide))) hp hs
  | iterate => exact h.iterate_expects hafter hn hdef (hgathered rfl (.inr (by decide))) hp hs
  | object =>
    rw [h.before.expected_object hn hdef] at hs
    rw [h.after.expected_object hn' hdef', clean_pair]
    refine ⟨clean_unresolved, ?_⟩
    rcases shapes_pair hs with rfl | ⟨u, rfl⟩
    · rfl
    · exact (unify_pair u _).1 (clean_pair.1 hp).unify_unresolved ▸ rfl
  | pair =>
    rw [h.after.expected_pair hn' hdef']
    exact ⟨clean_unresolved, hp.unify_unresolved⟩
  | arithmetic op hkey =>
    rw [h.before.expected_arithmetic hn hdef hkey] at hs
    rw [h.after.expected_arithmetic hn' hdef' hkey]
    refine ⟨clean_number, ?_⟩
    rcases shapes_leaf (.inr (.inl rfl)) hs with rfl | rfl <;> rfl

end After

/-- From the last nodes on, what has the shape of what was expected before fits now. -/
theorem matches_from (hp : Clean (e'.produced id key))
    (hs : ∀ d ∈ e'.graph.connectionsFrom id key,
      Shapes (e.expected d.dest.node d.dest.key) (e'.produced id key)) :
    ∀ d ∈ e'.graph.connectionsFrom id key, e'.Matches d := by
  induction id using (h.after.acyclic.wellFounded_swap h.after.wellFormed).induction
    generalizing key with
  | _ id ih =>
    refine h.after.matches_of_suited (fun d hd hc => ?_) fun d hd ha => ?_
    · exact hcontested (h.after.wellFormed.mem_connectionsFrom.1 hd).1 hc
    · have hshape := hs d hd
      have hf := h.after.wellFormed.feeds_of_mem_connectionsFrom hd
      obtain ⟨hk, rfl, rfl⟩ := h.after.wellFormed.mem_connectionsFrom.1 hd
      exact h.expected_fits (fun hp hs => ih _ hf hp hs) hk rfl ha hp hshape

/-- Then the types fit along all connections. -/
theorem all_match (hp : e'.graph.KeepsParams e'.catalogue) (hd : e'.graph.connection? k = some d) :
    e'.Matches d := by
  refine h.matches_from hcontested (clean_of_not_hasMismatch (h.produced_fits hcontested hp hd).1)
    (fun g hg => ?_) d (h.after.wellFormed.mem_from hd)
  obtain ⟨hg, hnode, hkey⟩ := h.after.wellFormed.mem_connectionsFrom.1 hg
  exact hnode ▸ hkey ▸ (h.produced_fits hcontested hp hg).2

end Contested

end Rewired

end Engine

end Dataflow
