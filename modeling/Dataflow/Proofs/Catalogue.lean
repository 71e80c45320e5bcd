import Dataflow.Catalogue
import Dataflow.Proofs.Tables

/-! What holds of every kind of node that a catalogue has (`Catalogue.All`). -/

namespace Dataflow

variable {Q : NodeDefinition → Prop}

/-- A kind of node of the module `Core`. -/
def Node.IsCore (n : Node) (type : String) : Prop := n.module = "Core" ∧ n.type = type

instance (n : Node) (type : String) : Decidable (n.IsCore type) :=
  inferInstanceAs (Decidable (_ ∧ _))

def Module.All (Q : NodeDefinition → Prop) (m : Module) : Prop :=
  ∀ (type : String) (d : NodeDefinition), m.nodes[type]? = some d → Q d

theorem Module.All.ofLists {nodes : List (String × NodeDefinition)}
    {types : List (String × TypeKind)} (h : ∀ d ∈ nodes.map (·.2), Q d) :
    (Module.ofLists nodes types).All Q :=
  fun _ _ hd => h _ (List.mem_map.2 ⟨_, Tables.mem_of_getElem?_ofList hd, rfl⟩)

namespace Catalogue

/-- It holds of all kinds of nodes, and of `NodeDefinition.notFound`, which stands for an unknown
one. -/
def All (Q : NodeDefinition → Prop) (c : Catalogue) : Prop :=
  ∀ module type, Q (c.definition module type)

theorem All.empty (hQ : Q .notFound) : Catalogue.empty.All Q := by
  intro module type
  have hn : Catalogue.empty.node? module type = none := by
    simp only [Catalogue.node?, Catalogue.empty, Std.ExtTreeMap.getElem?_empty, Option.bind_none]
  rw [definition, hn]
  exact hQ

theorem All.register {c : Catalogue} (hc : c.All Q) (hQ : Q .notFound) {m : Module} (hm : m.All Q)
    (name : String) : (c.register name m).All Q := by
  intro module type
  by_cases hn : module = name
  · subst hn
    have hn : (c.register module m).node? module type = m.nodes[type]? := by
      simp only [Catalogue.node?, Catalogue.register, Tables.getElem?_insert, if_true,
        Option.bind_some]
    rw [definition, hn]
    cases hd : m.nodes[type]? with
    | none => exact hQ
    | some d => exact hm type d hd
  · have hn : (c.register name m).node? module type = c.node? module type := by
      simp only [Catalogue.node?, Catalogue.register, Tables.getElem?_insert, hn, if_false]
    rw [definition, hn]
    exact hc module type

theorem All.mono {R : NodeDefinition → Prop} {c : Catalogue} (hc : c.All Q)
    (h : ∀ d, Q d → R d) : c.All R :=
  fun module type => h _ (hc module type)

/-- It is enough to look at the kinds of nodes that there are from the outset, those of
`Catalogue.builtin`. -/
theorem all_builtin (literal : ∀ kind, Q (.literal kind)) (array : Q .array) (iterate : Q .iterate)
    (collect : Q .collect) (object : Q .object) (pair : Q .pair)
    (arithmetic : ∀ op, Q (.arithmetic op)) (notFound : Q .notFound) : builtin.All Q := by
  refine (((All.empty notFound).register notFound (.ofLists ?_) _).register notFound
    (.ofLists ?_) _).register notFound (.ofLists ?_) _
  · simp [literal, array, iterate, collect, object, pair]
  · simp [arithmetic]
  · simp [notFound]

theorem node?_builtin (module type : String) : builtin.node? module type =
    if module = "Error" then Module.error.nodes[type]?
    else if module = "Math" then Module.math.nodes[type]?
    else if module = "Core" then Module.core.nodes[type]? else none := by
  simp only [node?, builtin, register, empty, Tables.getElem?_insert, Std.ExtTreeMap.getElem?_empty]
  repeat' split
  all_goals rfl

/-- What stands for a node of an unknown kind has no ports. -/
theorem contains_of_ports {c : Catalogue} {module type : String}
    (h : (c.definition module type).ports ≠ []) : c.contains module type := by
  rw [contains, Option.isSome_iff_ne_none]
  intro hnone
  rw [definition, hnone] at h
  exact h rfl

end Catalogue

end Dataflow
