import Dataflow.Proofs.Engine.Store
import Dataflow.Proofs.Query.Gets

/-! What is answered when nothing is remembered (`Engine.reply`).

On a sound table every plan comes to what it comes to with these answers, and a question that has an
answer without a memory has that of its plan (`Domain.gets`). -/

namespace Dataflow.Engine

open Memo (Table)

/-- The answer of an engine that remembers nothing yet. -/
def reply (e : Engine) (q : Query) : q.Answer := (e.ask q (.empty false)).1

variable {e : Engine} {P K : Query → Prop} {α : Type} {t : Table} {q : Query}

section

variable {o : Precedence}

theorem Domain.reply_right (hD : e.Domain o P K) (hP : P q) : e.Right o q (e.reply q) :=
  hD.ask_right hP (.of_empty rfl)

/-- Within a domain the answers are those that there are when nothing is remembered. -/
theorem Domain.gets (hD : e.Domain o P K) {p : Plan α} (hw : p.Within P (e.Right o))
    (ht : e.Sound o K t) : p.Gets e.ask e.reply t := by
  induction p generalizing t with
  | done a => trivial
  | ask q next ih =>
    exact ⟨hD.ask_fst hw.1 ht (.of_empty rfl),
      ih _ (hw.2 _ (hD.ask_right hw.1 ht)) (hD.ask_sound hw.1 ht)⟩

theorem Domain.perform_eval (hD : e.Domain o P K) {p : Plan α} (hw : p.Within P (e.Right o))
    (ht : e.Sound o K t) : (e.perform p t).1 = p.eval e.reply :=
  (hD.gets hw ht).run_eq

/-- A plan that asks questions of the domain ends as it does with right answers. -/
theorem Domain.perform_of_ends (hD : e.Domain o P K) {Q : α → Prop} {p : Plan α}
    (h : p.Ends P (e.Right o) Q) (ht : e.Sound o K t) : Q (e.perform p t).1 := by
  induction p generalizing t with
  | done a => exact h
  | ask q next ih => exact ih _ (h.2 _ (hD.ask_right h.1 ht)) (hD.ask_sound h.1 ht)

theorem Domain.eval_of_run (hD : e.Domain o P K) {p : Plan α} (hw : p.Within P (e.Right o))
    {d : Nat} {a : α} {reads : NodeSet} (h : p.run (e.plain o d) = some (a, reads)) :
    p.eval e.reply = a := by
  induction p generalizing reads with
  | done b => exact (Plan.run_done_some.1 h).1.symm
  | ask q next ih =>
    obtain ⟨b, r, s, hq, hn, -⟩ := Plan.run_ask_some.1 h
    have hb : e.reply q = b := hD.reply_right hw.1 d b r hq
    rw [Plan.eval, hb]
    exact ih b (hw.2 b (right_of_plain hq)) hn

end

/-! ## Answers about the graph -/

theorem answers_reply : e.graph.Answers fun q a => a = e.reply q := by
  have right {q : Query} (hq : q.AboutStore) : e.Right .last q (e.reply q) :=
    storeDomain.reply_right hq
  exact ⟨fun h => h ▸ answers_right.node (right trivial),
    fun h => h ▸ answers_right.connectionsInto (right trivial),
    fun h => h ▸ answers_right.connectionsFrom (right trivial),
    fun h => h ▸ answers_right.ports (right trivial)⟩

@[simp] theorem reply_node (id : NodeId) : e.reply (.node id) = e.graph.node? id :=
  answers_reply.node rfl

@[simp] theorem reply_connectionsInto (id : NodeId) (key : String) :
    e.reply (.connectionsInto id key) = e.graph.connectionsInto id key :=
  answers_reply.connectionsInto rfl

@[simp] theorem reply_connectionsFrom (id : NodeId) (key : String) :
    e.reply (.connectionsFrom id key) = e.graph.connectionsFrom id key :=
  answers_reply.connectionsFrom rfl

end Dataflow.Engine
