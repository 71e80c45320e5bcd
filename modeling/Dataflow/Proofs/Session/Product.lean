import Dataflow.Proofs.Query.Combinations
import Dataflow.Proofs.Session.Search
import Dataflow.Proofs.Session.Values

/-! The combinations that a collector takes its input in, in any state of a session: one for each
row of places of the elements that the iterators turn out to have, in the order of the rows
(`Elements.Product`). -/

namespace Dataflow

namespace Engine

open Memo (Table)

variable {e : Engine} {t : Table}

theorem ask_node (id : NodeId) : e.ask (.node id) t = (e.graph.node? id, t.read id) :=
  ask_eq (d := 1) rfl

theorem ask_limit : e.ask .limit t = (e.limit, t) :=
  ask_eq (d := 1) rfl

end Engine

namespace Session

variable {s : Session} {S : Scope} {ns : List Node} {answer : (q : Query) → q.Answer}

/-- The answers, apart from those that do not depend on what is remembered. -/
def known (s : Session) (answer : (q : Query) → q.Answer) : (q : Query) → q.Answer
  | .node id => s.graph.node? id
  | .limit => s.config.limit
  | q => answer q

theorem gets_known {α : Type} {p : Plan α} (h : p.Gets s.engine.ask answer s.table) :
    p.Gets s.engine.ask (s.known answer) s.table := by
  refine h.of_forall fun q => ?_
  cases q with
  | node id => exact .inr fun t => by rw [Engine.ask_node]; rfl
  | limit => exact .inr fun t => by rw [Engine.ask_limit]; rfl
  | _ => exact .inl rfl

/-- An expansion asks nothing twice, and so gets the answers of a function, by `Plan.expand_fresh`.
-/
theorem exists_gets_expand (hnodes : ∀ n ∈ ns, s.graph.node? n.id = some n)
    (hnodup : (ns.map Node.id).Nodup) :
    ∃ answer, (Plan.expand (ns.map Node.id) S).Gets s.engine.ask answer s.table := by
  have hfresh : (Plan.expand (ns.map Node.id) S).Fresh
      (fun q a => ∃ t, (s.engine.ask q t).1 = a) fun _ => False := by
    refine Plan.expand_fresh ?_ hnodup
    rintro x hx n ⟨t, ht⟩
    obtain ⟨m, hm, rfl⟩ := List.mem_map.1 hx
    rw [Engine.ask_node] at ht
    obtain rfl : m = n := Option.some.inj ((hnodes m hm).symm.trans ht)
    rfl
  exact hfresh.exists_gets (fun q t => ⟨t, rfl⟩) s.table

/-! ## Expansions -/

/-- What an expansion comes to: nothing if the rows of places of the first iterators are too many
already, and otherwise the product, which is that of numbers where no iterator depends on others. A
row of places is an `Elements.Row`, and iterators that do not depend on others are
`Elements.Steady`. -/
structure Expansion (elements : Elements) (limit : Nat) (S : Scope) (ns : List Node)
    (found : Option (List Scope)) : Prop where
  none_iff : found = none ↔ ∃ j < ns.length,
    (limit : ℕ∞) < {is | elements.Row S ∅ (ns.take (j + 1)) is}.encard
  product : ∀ scopes, found = some scopes → ∃ rows, elements.Product S ns rows scopes
  steady : ∀ size, elements.Steady S ∅ ns size →
    (found = none ↔ ∃ j < ns.length, limit < ((ns.take (j + 1)).map size).prod) ∧
    ∀ scopes, found = some scopes → scopes.length = (ns.map size).prod ∧
      elements.Product S ns
        ((List.range (ns.map size).prod).map (Elements.digits (ns.map size))) scopes

theorem expansion_of_gets (hnodes : ∀ n ∈ ns, s.graph.node? n.id = some n)
    (hnodup : (ns.map Node.id).Nodup)
    (h : (Plan.expand (ns.map Node.id) S).Gets s.engine.ask answer s.table) :
    Expansion (Plan.elementsOf answer) s.config.limit S ns
      (perform (Plan.expand (ns.map Node.id) S) s).1 := by
  have hknown : ∀ n ∈ ns, s.known answer (.node n.id) = some n := hnodes
  have hfound : (perform (Plan.expand (ns.map Node.id) S) s).1 =
      (Plan.expand (ns.map Node.id) S).eval (s.known answer) := (gets_known h).run_eq
  have hnone : (perform (Plan.expand (ns.map Node.id) S) s).1 = none ↔ ∃ j < ns.length,
      s.config.limit < ((Plan.elementsOf answer).picks S ∅ (ns.take (j + 1))).length := by
    rw [hfound]
    exact Plan.eval_expand_eq_none hknown
  have hsome (scopes : List Scope)
      (h : (perform (Plan.expand (ns.map Node.id) S) s).1 = some scopes) :
      scopes = ((Plan.elementsOf answer).picks S ∅ ns).map fun p => S.child p.2 :=
    Plan.eq_picks_of_eval_expand hknown (hfound.symm.trans h)
  refine ⟨?_, fun scopes hscopes => ?_, fun size hsize => ⟨?_, fun scopes hscopes => ?_⟩⟩
  · simp only [hnone, Elements.encard_row, Nat.cast_lt]
  · exact hsome scopes hscopes ▸ ⟨_, Elements.product_picks hnodup⟩
  · simp only [hnone, (hsize.take _).length_picks]
  · rw [hsome scopes hscopes, ← hsize.map_fst_picks, List.length_map, hsize.length_picks]
    exact ⟨rfl, Elements.product_picks hnodup⟩

/-! ## Collecting -/

theorem perform_bind {α β : Type} (p : Plan α) (f : α → Plan β) (s : Session) :
    perform (p >>= f) s = perform (f (perform p s).1) (perform p s).2 := by
  simp only [perform, Engine.perform, Plan.run_bind]
  rfl

/-- What a collector takes in, one after the other. -/
structure Items (s : Session) (c : NodeId) (scopes : List Scope) (items : List Value) : Prop where
  length : items.length = scopes.length
  place : ∀ k T, scopes[k]? = some T → items[k]? =
    some (perform (Plan.inputValue c "input" T)
      (perform ((scopes.take k).mapM (Plan.inputValue c "input")) s).2).1

theorem items_mapM (s : Session) (c : NodeId) (scopes : List Scope) :
    s.Items c scopes (perform (scopes.mapM (Plan.inputValue c "input")) s).1 where
  length := Plan.length_run_mapM (Plan.inputValue c "input") scopes s.table
  place _ _ hT := Plan.getElem?_run_mapM hT s.table

/-- A collector takes its input in each combination. Without an iterator, or with too many
combinations, it takes nothing. -/
theorem perform_collect (s : Session) (c : NodeId) (S : Scope) :
    let entries := perform (Plan.openEntries c S) s
    let found := perform (Plan.expand entries.1 S) entries.2
    (entries.1 = [] ∨ found.1 = none → (perform (Plan.collect c S) s).1 = .array []) ∧
    ∀ scopes, entries.1 ≠ [] → found.1 = some scopes →
      ∃ items, (perform (Plan.collect c S) s).1 = .array items ∧ found.2.Items c scopes items := by
  rw [Plan.collect, perform_bind]
  dsimp only
  generalize perform (Plan.openEntries c S) s = entries
  by_cases hnil : entries.1 = []
  · rw [if_pos (List.isEmpty_iff.2 hnil)]
    exact ⟨fun _ => rfl, fun _ h => absurd hnil h⟩
  rw [if_neg (mt List.isEmpty_iff.1 hnil), perform_bind]
  generalize perform (Plan.expand entries.1 S) entries.2 = found
  obtain ⟨_ | scopes, s'⟩ := found
  · exact ⟨fun _ => rfl, fun _ _ h => by cases h⟩
  · refine ⟨fun h => h.elim (absurd · hnil) fun h => (by cases h), ?_⟩
    rintro _ - ⟨⟩
    dsimp only
    rw [perform_bind]
    exact ⟨_, rfl, items_mapM s' c scopes⟩

/-- The iterators that a collector comes upon are nodes of the graph. -/
theorem Reached.openEntries_nodes (h : s.Reached) (c : NodeId) (S : Scope) :
    ∃ ns : List Node, (Session.perform (Plan.openEntries c S) s).1 = ns.map Node.id ∧
      (∀ n ∈ ns, s.graph.node? n.id = some n) ∧ (ns.map Node.id).Nodup := by
  have hfound := h.openEntries_found c S
  obtain ⟨ns, hns⟩ : (Session.perform (Plan.openEntries c S) s).1 ∈
      Set.range (List.map fun n : {n : Node // s.graph.node? n.id = some n} => n.1.id) := by
    rw [Set.range_list_map]
    intro x hx
    obtain ⟨n, hn⟩ := Engine.node_of_isIterator ((hfound.mem x).1 hx).2.1.isIterator
    obtain rfl := h.wellFormed.node_id hn
    exact ⟨⟨n, hn⟩, rfl⟩
  have hmap : (ns.map Subtype.val).map Node.id = (Session.perform (Plan.openEntries c S) s).1 := by
    rw [List.map_map]
    exact hns
  refine ⟨ns.map Subtype.val, hmap.symm, fun n hn => ?_, hmap ▸ hfound.nodup⟩
  obtain ⟨n, -, rfl⟩ := List.mem_map.1 hn
  exact n.2

/-- Any iterators of a graph get their elements as from a function of the iterator and of the frame:
as an expansion asks nothing twice (`exists_gets_expand`), its answers are those of a function
(`Plan.Gets`). With this it comes to the ordered product, or to nothing if there are too many
combinations (`Expansion`, by `expansion_of_gets`). A collector expands those that it comes upon and
takes its input in each combination (`Items`, by `perform_collect`). -/
theorem expand_product :
    (∀ (s : Session) (S : Scope) (ns : List Node), (∀ n ∈ ns, s.graph.node? n.id = some n) →
      (ns.map Node.id).Nodup →
      (∃ answer, (Plan.expand (ns.map Node.id) S).Gets s.engine.ask answer s.table) ∧
      ∀ answer, (Plan.expand (ns.map Node.id) S).Gets s.engine.ask answer s.table →
        Expansion (Plan.elementsOf answer) s.config.limit S ns
          (perform (Plan.expand (ns.map Node.id) S) s).1) ∧
    ∀ s : Session, s.Reached → ∀ (c : NodeId) (S : Scope),
      let entries := perform (Plan.openEntries c S) s
      let found := perform (Plan.expand entries.1 S) entries.2
      (∃ ns : List Node, entries.1 = ns.map Node.id ∧
        (∀ n ∈ ns, entries.2.graph.node? n.id = some n) ∧ (ns.map Node.id).Nodup) ∧
      (entries.1 = [] ∨ found.1 = none → (perform (Plan.collect c S) s).1 = .array []) ∧
      ∀ scopes, entries.1 ≠ [] → found.1 = some scopes →
        ∃ items, (perform (Plan.collect c S) s).1 = .array items ∧
          found.2.Items c scopes items := by
  refine ⟨fun s S ns hnodes hnodup => ⟨exists_gets_expand hnodes hnodup, fun answer h => ?_⟩,
    fun s h c S => ⟨h.openEntries_nodes c S, perform_collect s c S⟩⟩
  exact expansion_of_gets hnodes hnodup h

/-- The collectors have not been asked for anything yet. -/
def strung : Session := (load warp (start .default .builtin)).2

/-- The iterator 4 has two elements, and the collector 8 takes in one item for each of them. -/
theorem expand_product_strung :
    (∃ answer scopes, (Plan.expand [⟨4⟩] (.root .root)).Gets strung.engine.ask answer strung.table ∧
      (perform (Plan.expand [⟨4⟩] (.root .root)) strung).1 = some scopes ∧
      (Plan.elementsOf answer).Product (.root .root) [coreNode 4 "Iterate" ∅] [[0], [1]] scopes) ∧
    ∃ items, (perform (Plan.collect ⟨8⟩ (.root .root)) strung).1 = .array items ∧
      items.length = 2 := by
  constructor
  · obtain ⟨⟨answer, h⟩, hexpansion⟩ := expand_product.1 strung (.root .root)
      [coreNode 4 "Iterate" ∅] (by decide +kernel) (by decide)
    have hcount : (perform (Plan.expand [⟨4⟩] (.root .root)) strung).1.map List.length = some 2 :=
      perform_map_eq (d := 10) (Option.map List.length) (by decide +kernel)
    obtain ⟨scopes, hscopes, hlength⟩ := Option.map_eq_some_iff.1 hcount
    obtain ⟨hsize, hproduct⟩ := ((hexpansion answer h).steady _ .singleton).2 scopes hscopes
    rw [hlength, List.map_singleton, List.prod_singleton] at hsize
    rw [List.map_singleton, ← hsize] at hproduct
    exact ⟨answer, scopes, h, hscopes, hproduct⟩
  · have hentries : (perform (Plan.openEntries ⟨8⟩ (.root .root)) strung).1 = [⟨4⟩, ⟨5⟩] :=
      perform_map_eq (d := 10) id (by decide +kernel)
    have hcount : (perform (Plan.openEntries ⟨8⟩ (.root .root) >>= (Plan.expand · (.root .root)))
        strung).1.map List.length = some 2 :=
      perform_map_eq (d := 10) (Option.map List.length) (by decide +kernel)
    rw [perform_bind] at hcount
    obtain ⟨scopes, hscopes, hlength⟩ := Option.map_eq_some_iff.1 hcount
    obtain ⟨items, hitems, hplaces⟩ := (expand_product.2 strung (.load _ (.start _ _)) ⟨8⟩
      (.root .root)).2.2 scopes (by rw [hentries]; simp) hscopes
    exact ⟨items, hitems, hplaces.length.trans hlength⟩

end Session

end Dataflow
