import Dataflow.Proofs.Session.Audit
import Dataflow.Proofs.Session.Proper

/-! Sessions that one batch has built from nothing over the kinds of nodes that there are from the
outset, and what they answer at a depth that is given beforehand. -/

namespace Dataflow.Session

variable {s : Session} {p q : PortRef} {c : Connection} {id : NodeId} {key : String} {d : Nat}
  {steps : List Step}

/-- Built from nothing by one batch. -/
def built (steps : List Step) : Session := (editAll steps (start .default .builtin)).2

/-- An engine on a graph of such a session. -/
def builtEngine (g : Graph) : Engine := ⟨g, .builtin, Config.default.limit⟩

theorem built_config (steps : List Step) : (built steps).config = .default :=
  (editAll_catalogue ..).2

theorem built_engine (steps : List Step) : (built steps).engine = builtEngine (built steps).graph :=
  editAll_engine ..

theorem built_edited (steps : List Step) : (built steps).Edited (· = .builtin) :=
  .editAll _ (.start _ rfl)

/-- What is made of the graph of such a session if its batch is kept. -/
theorem built_of_within {α : Type} {a : α} (f : Graph → α) (steps : List Step)
    (h : (Step.applyAllWithin d steps (start .default .builtin).openEdit).map
      (fun r => (r.1.failure.isNone, f r.2.graph)) = some (true, a)) : f (built steps).graph = a :=
  editAll_of_within f steps _ h

/-! ## Connections -/

/-- The outcome of joining two ports of a graph. -/
def connectWithin (d : Nat) (p q : PortRef) (g : Graph) :
    Option (Except GraphError Change.Result) :=
  ((Edit.start g .builtin Config.default.limit).applyWithin d (.change (.connect p q) false)).map
    Prod.fst

theorem connect_of_within (h : connectWithin d p q (built steps).graph =
    some (.ok (.connection c))) : (connect p q (built steps)).1 = .ok c := by
  obtain ⟨r, hr, hc⟩ := Option.map_eq_some_iff.1 h
  have hopen : (built steps).openEdit = .start (built steps).graph .builtin Config.default.limit :=
    editAll_openEdit ..
  have happly := congrArg Prod.fst (Edit.apply_of_within (hopen ▸ hr))
  rw [hc] at happly
  have hrun : ((Change.connect p q).apply.run (built steps).openEdit).1 = .ok (.connection c) :=
    happly
  rw [Change.apply, EditM.run_map] at hrun
  rw [connect_fst]
  rcases hconnect : (Edit.connect p q).run (built steps).openEdit with ⟨r, e⟩
  rw [hconnect] at hrun
  cases r with
  | error failure => cases hrun
  | ok c' =>
    cases hrun
    rfl

theorem connect_built (h : (connect p q (built steps)).1 = .ok c) :
    (connect p q (built steps)).2.engine = builtEngine ((built steps).graph.joined c) := by
  obtain ⟨hcat, hconfig⟩ := editAll_catalogue steps (start .default .builtin)
  rw [connect_engine (built_edited steps).reached.wellFormed h, built, hcat, hconfig]
  rfl

/-! ## Checks -/

/-- What the audit finds in a graph. -/
def auditWithin (d : Nat) (g : Graph) : Option (List (Connection × Rejection)) :=
  (g.invalidConnections.run ((builtEngine g).answer d []) (.empty false)).map Prod.fst

theorem invalidConnections_of_within {found : List (Connection × Rejection)}
    (h : s.Edited (· = .builtin)) (he : s.engine = builtEngine s.graph)
    (hd : auditWithin d s.graph = some found) : (invalidConnections s).1 = found := by
  have hc := h.proper.typed
  have heval := (Engine.typesDomain (o := .last) hc fun _ => id).perform_eval (e := s.engine)
    (t := .empty false) s.graph.invalidConnections_within (.of_empty rfl)
  rw [invalidConnections_eval h.reached hc, ← heval, he]
  exact Engine.perform_fst_eq hd

/-- What the check of all types finds in a graph. -/
def diagnosticsWithin (d : Nat) (g : Graph) : Option (List Diagnostic) :=
  ((Typing.check .builtin g).run ((builtEngine g).answer d []) (.empty false)).map
    (·.1.diagnostics)

theorem diagnostics_of_within {found : List Diagnostic} (h : s.Edited (· = .builtin))
    (he : s.engine = builtEngine s.graph) (hd : diagnosticsWithin d s.graph = some found) :
    (typing s).1.diagnostics = found := by
  have hc := h.proper.typed
  have heval := (Engine.typesDomain (o := .last) hc fun _ => id).perform_eval (e := s.engine)
    (t := .empty false) (Typing.check_within s.catalogue s.graph) (.of_empty rfl)
  rw [typing_eval h.reached hc, ← heval, show s.catalogue = .builtin from h.proper.catalogue, he]
  exact Engine.perform_map_eq Typing.diagnostics hd

/-! ## Types and values -/

theorem deliveredType_of_within {t : ValueType} (h : s.Edited (· = .builtin))
    (he : s.engine = builtEngine s.graph) (hn : (s.graph.requireNode id).toOption.isSome)
    (hd : ((builtEngine s.graph).answer d [] (.deliveredType id key .root) (.empty false)).map
      Prod.fst = some t) : (deliveredType id key s).1 = .ok t := by
  obtain ⟨r, hr, hfst⟩ := Option.map_eq_some_iff.1 hd
  have hdelivered : s.engine.reply (.deliveredType id key .root) = t :=
    he ▸ (congrArg Prod.fst (Engine.ask_eq hr)).trans hfst
  rw [deliveredType_fst h.reached h.proper.typed, hdelivered]
  cases hrequire : s.graph.requireNode id with
  | error failure =>
    rw [hrequire] at hn
    cases hn
  | ok n => rfl

/-- What is made of a value that is found afresh. -/
theorem valueAt_of_within {α : Type} {a : α} {f : Value → α} {v : Value}
    (he : s.engine = builtEngine s.graph)
    (hd : ((builtEngine s.graph).answer d [] (.value id (.root .root) key)
      (.empty s.config.tracksStatistics)).map (fun r => f r.1) = some a)
    (hv : (valueAt id key s.forget).1 = .ok v) : f v = a := by
  obtain ⟨r, hr, hf⟩ := Option.map_eq_some_iff.1 hd
  have hask : s.engine.ask (.value id (.root .root) key) (.empty s.config.tracksStatistics) = r :=
    he ▸ Engine.ask_eq hr
  have hperform : (perform (Plan.value id (.root .root) key) s.forget).1 = r.1 :=
    congrArg Prod.fst hask
  rw [valueAt, performAt_fst, hperform] at hv
  cases hrequire : s.forget.graph.requireNode id with
  | error failure =>
    rw [hrequire] at hv
    cases hv
  | ok n =>
    rw [hrequire] at hv
    cases hv
    exact hf

end Dataflow.Session
