import Dataflow.Proofs.Engine.Search

/-! How deep a question goes, in any graph.

Each question is asked in surroundings, and another one that comes up for it in the same ones or in
larger ones (`Leads`): a collector binds iterators that were not bound, and a delivered type makes a
node provisional that was not. Within the same surroundings an output is not looked for while it is
being looked for, so there are no more of them in progress than there are connections
(`Graph.sourcesLeft`). -/

namespace Dataflow

open Memo (Table Key)

/-! ## Surroundings -/

namespace Query

def scope? : Query → Option Scope
  | bound _ S | value _ S _ | visit _ S _ _ | elements _ S => some S
  | _ => none

def context? : Query → Option Context
  | outputType _ _ C | deliveredType _ _ C | expectedType _ _ C => some C
  | q => q.scope?.map Scope.context

theorem context?_of_scope? {q : Query} {S : Scope} (h : q.scope? = some S) :
    q.context? = some S.context := by
  cases q <;> cases h <;> rfl

end Query

namespace Engine

variable {e : Engine} {S T : Scope} {working : List Key} {id : NodeId} {key : String}

/-- One scope is the other, or else it binds besides an iterator that is not bound there. -/
structure Extends (e : Engine) (S T : Scope) : Prop where
  context : T.context = S.context
  isBound : ∀ x, S.isBound x → T.isBound x
  fresh : T = S ∨ ∃ x, e.isIterator x ∧ T.isBound x ∧ S.isBound x = false

theorem Extends.refl (S : Scope) : e.Extends S S := ⟨rfl, fun _ h => h, .inl rfl⟩

/-- The surroundings of a question that comes up for another one. -/
structure Leads (e : Engine) (q q' : Query) : Prop where
  scope : ∀ T, q'.scope? = some T → ∃ S, q.scope? = some S ∧ e.Extends S T
  context : ∀ D, q'.context? = some D → ∃ C, q.context? = some C ∧
    (D = C ∨ ∃ id, C.provisional? id = none ∧ D = C.withProvisional id)

/-! ## Ranks -/

def valueKey (S : Scope) (id : NodeId) (key : String) : Key := .inScope .value id S.key key

def typeKey (C : Context) (id : NodeId) (key : String) : Key :=
  .inContext .outputType id C.key key

/-- Above all types, and above all that is asked in a larger scope. -/
def scopeRank (e : Engine) (S : Scope) : Nat :=
  e.graph.nodesLeft S.isBound * (2 * e.graph.connectionList.length + 1) +
    (2 * e.graph.nodeList.length + e.graph.connectionList.length + 4)

theorem scopeRank_pos (e : Engine) (S : Scope) : 0 < e.scopeRank S :=
  Nat.lt_of_lt_of_le (Nat.succ_pos _) (Nat.le_add_left ..)

/-- How many questions may be asked one within the other to answer a question. -/
def rank (e : Engine) (working : List Key) : Query → Nat
  | .ports _ => 1
  | .outputType id key context =>
    if typeKey context id key ∈ working then 0
    else e.graph.sourcesLeft (typeKey context id key :: working) (typeKey context) + 1
  | .deliveredType _ _ context =>
    2 * e.graph.nodesLeft context.nodes.contains + e.graph.connectionList.length + 2
  | .expectedType _ _ context =>
    2 * e.graph.nodesLeft context.nodes.contains + e.graph.connectionList.length + 3
  | .visit _ _ seen _ => e.graph.nodesLeft seen.contains + 1
  | .value id scope key =>
    if valueKey scope id key ∈ working then 0
    else e.scopeRank scope +
      2 * e.graph.sourcesLeft (valueKey scope id key :: working) (valueKey scope) + 1
  | .elements _ scope => e.scopeRank scope + 2 * e.graph.sourcesLeft working (valueKey scope)
  | _ => 0

theorem rank_outputType_le (e : Engine) (working : List Key) (id : NodeId) (key : String)
    (C : Context) : e.rank working (.outputType id key C) ≤ e.graph.connectionList.length + 1 := by
  have := e.graph.sourcesLeft_le (typeKey C id key :: working) (typeKey C)
  simp only [rank]
  split <;> omega

theorem rank_expectedType_lt (e : Engine) (working : List Key) (id : NodeId) (key : String)
    (C : Context) (S : Scope) : e.rank working (.expectedType id key C) < e.scopeRank S := by
  have := e.graph.nodesLeft_le C.nodes.contains
  simp only [rank, scopeRank]
  omega

theorem rank_visit_lt (e : Engine) (working : List Key) (id : NodeId) (seen : NodeSet)
    (found : List NodeId) (S : Scope) :
    e.rank working (.visit id S seen found) < e.scopeRank S := by
  have := e.graph.nodesLeft_le seen.contains
  simp only [rank, scopeRank]
  omega

/-- An output is looked for within another one of the same context. -/
theorem rank_outputType_lt {C : Context} {c : Connection} (hc : c ∈ e.graph.connectionList) :
    e.rank working (.outputType c.src.node c.src.key C) <
      e.graph.sourcesLeft working (typeKey C) + 1 := by
  simp only [rank]
  split
  · omega
  next hk => exact Nat.succ_lt_succ (Graph.sourcesLeft_lt hc hk)

theorem rank_value_lt {c : Connection} (hc : c ∈ e.graph.connectionList) (S : Scope) :
    e.rank working (.value c.src.node S c.src.key) <
      e.scopeRank S + 2 * e.graph.sourcesLeft working (valueKey S) := by
  simp only [rank]
  split
  · have := e.scopeRank_pos S
    omega
  next hk =>
    have := Graph.sourcesLeft_lt hc hk
    omega

section Scopes

variable (hg : e.graph.WellFormed)

include hg

theorem Extends.scopeRank (h : e.Extends S T) : T = S ∨
    e.scopeRank T + (2 * e.graph.connectionList.length + 1) ≤ e.scopeRank S := by
  refine h.fresh.imp_right fun hx => ?_
  obtain ⟨x, hx, hT, hS⟩ := hx
  have := Nat.mul_le_mul_right (2 * e.graph.connectionList.length + 1)
    (hg.nodesLeft_lt h.isBound (Option.isSome_iff_exists.2 (node_of_isIterator hx)) hS hT)
  simp only [Engine.scopeRank]
  rw [Nat.succ_mul] at this
  omega

/-- What counts against the rank of a value in a scope. -/
theorem Extends.rank_le (h : e.Extends S T) (working : List Key) :
    e.scopeRank T + 2 * e.graph.sourcesLeft working (valueKey T) ≤
      e.scopeRank S + 2 * e.graph.sourcesLeft working (valueKey S) := by
  rcases h.scopeRank hg with rfl | hr
  · exact Nat.le_refl _
  -- nothing is being looked for in the larger scope yet, and what it binds makes up for that
  · have := e.graph.sourcesLeft_le working (valueKey T)
    omega

end Scopes

end Engine

end Dataflow
