import Dataflow.Definition.Arithmetic
import Dataflow.Definition.Core
import Dataflow.Definition.Template
import Dataflow.Text.Quoted
import Dataflow.ValueType.Kind

/-! Modules: named bundles of kinds of nodes and of types. The modules that there are from the
outset make up `Catalogue.builtin`. -/

namespace Dataflow

structure Module where
  nodes : Std.ExtTreeMap String NodeDefinition compare
  types : Std.ExtTreeMap String TypeKind compare

namespace Module

def ofLists (nodes : List (String × NodeDefinition)) (types : List (String × TypeKind)) : Module :=
  ⟨.ofList nodes compare, .ofList types compare⟩

def core : Module :=
  ofLists
    [("String", .literal .text), ("Number", .literal .number), ("Boolean", .literal .boolean),
      ("Array", .array), ("Iterate", .iterate), ("Collect", .collect), ("Object", .object),
      ("Pair", .pair)]
    [("Unresolved", .unresolved), ("Mismatch", .mismatch), ("String", .string),
      ("Number", .number), ("Boolean", .boolean), ("Array", .array), ("Object", .object),
      ("Pair", .pair)]

def math : Module :=
  ofLists
    [("Add", .arithmetic .add), ("Subtract", .arithmetic .subtract),
      ("Multiply", .arithmetic .multiply), ("Divide", .arithmetic .divide)]
    []

def error : Module := ofLists [("NotFound", .notFound)] []

end Module

structure Catalogue where
  modules : Std.ExtTreeMap String Module compare

namespace Catalogue

def empty : Catalogue := ⟨∅⟩

/-- Adds a module in place of any of the same name. -/
def register (c : Catalogue) (name : String) (m : Module) : Catalogue :=
  ⟨c.modules.insert name m⟩

def builtin : Catalogue :=
  ((empty.register "Core" .core).register "Math" .math).register "Error" .error

def node? (c : Catalogue) (module type : String) : Option NodeDefinition :=
  c.modules[module]?.bind fun m => m.nodes[type]?

def contains (c : Catalogue) (module type : String) : Bool := (c.node? module type).isSome

/-- What a kind of node does; for an unknown kind this is `NodeDefinition.notFound`. -/
def definition (c : Catalogue) (module type : String) : NodeDefinition :=
  (c.node? module type).getD .notFound

def definitionOf (c : Catalogue) (n : Node) : NodeDefinition := c.definition n.module n.type

def kinds (c : Catalogue) : TypeKinds := fun module name =>
  c.modules[module]?.bind fun m => m.types[name]?

/-- Modules and the kinds of nodes in them, as text. -/
def text (c : Catalogue) : String :=
  let list (name : String) (m : Module) : String :=
    Text.quoted name ++ ": [" ++ ", ".intercalate (m.nodes.keys.map Text.quoted) ++ "]"
  "\x7b" ++ ", ".intercalate (c.modules.toList.map fun (name, m) => list name m) ++ "\x7d"

end Catalogue

end Dataflow
