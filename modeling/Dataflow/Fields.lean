import Std.Data.ExtTreeMap
import Std.Data.ExtTreeSet

/-! Named fields in the order of their names. -/

namespace Dataflow

/-- Fields with ascending, distinct names. -/
abbrev Fields (α : Type) := List (String × α)

namespace Fields

variable {α β : Type}

/-- The names stand in strictly ascending order. -/
def Sorted (fs : Fields α) : Prop := (fs.map Prod.fst).Pairwise (· < ·)

instance (fs : Fields α) : Decidable fs.Sorted := by unfold Sorted; infer_instance

/-- Sorts fields by name; of two with one name the later is kept. -/
def ofList (fs : List (String × α)) : Fields α := (Std.ExtTreeMap.ofList fs compare).toList

/-- The names on either side, ascending. -/
def unionNames (fs : Fields α) (gs : Fields β) : List String :=
  (Std.ExtTreeSet.ofList (fs.map Prod.fst ++ gs.map Prod.fst) compare).toList

end Fields

end Dataflow
