import Dataflow.Memo.Key
import Dataflow.Value.Basic
import Dataflow.ValueType.Basic

/-! The surroundings of a question: bound iterators for values, provisional types for types. -/

namespace Dataflow

/-- The nodes whose types are being worked out. Their types are unresolved for the time being. -/
structure Context where
  nodes : NodeSet
  deriving DecidableEq

namespace Context

def root : Context := ⟨∅⟩

def withProvisional (c : Context) (id : NodeId) : Context := ⟨c.nodes.insert id⟩

def provisional? (c : Context) (id : NodeId) : Option ValueType :=
  if c.nodes.contains id then some .unresolved else none

def key (c : Context) : List NodeId := c.nodes.toList

/-- A list of the provisional types, in full. -/
def text (c : Context) : String :=
  let entry (id : NodeId) : String :=
    s!"NodeId({id.index}): " ++
      "ValueType \x7b name: \"Unresolved\", module: \"Core\", display: \"?\", " ++
      "params: \x7b\x7d, reason: None \x7d"
  "Context \x7b types: \x7b" ++ ", ".intercalate (c.key.map entry) ++ "\x7d \x7d"

end Context

/-- The element that an iterator is bound to, and the nodes that were read for the collection. -/
structure Local where
  value : Value
  index : Nat
  sources : NodeSet
  deriving Inhabited

abbrev Locals := Std.ExtTreeMap NodeId Local compare

structure Scope where
  locals : Locals
  context : Context

namespace Scope

def root (context : Context) : Scope := ⟨∅, context⟩

/-- A scope inside another; what it binds hides what is bound outside. -/
def child (s : Scope) (locals : Locals) : Scope := { s with locals := s.locals ∪ locals }

def lookup (s : Scope) (id : NodeId) : Option Local := s.locals[id]?

def isBound (s : Scope) (id : NodeId) : Bool := s.locals.contains id

@[simp] theorem lookup_root (context : Context) (id : NodeId) : (root context).lookup id = none :=
  Std.ExtTreeMap.getElem?_empty

/-- Inside, what the scope binds itself comes first. -/
@[simp] theorem lookup_child (s : Scope) (locals : Locals) (id : NodeId) :
    (s.child locals).lookup id = locals[id]?.or (s.lookup id) :=
  Std.ExtTreeMap.getElem?_union

theorem isBound_eq_isSome (s : Scope) (id : NodeId) : s.isBound id = (s.lookup id).isSome :=
  Std.ExtTreeMap.contains_eq_isSome_getElem?

/-- The fingerprint of a scope: where the bound iterators stand, by node. It tells neither what they
are bound to nor which was bound first. -/
def key (s : Scope) : List Memo.Position := s.locals.toList.map fun (n, l) => ⟨n, l.index⟩

end Scope

end Dataflow
