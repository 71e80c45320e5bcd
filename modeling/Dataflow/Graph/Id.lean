import Std.Data.ExtTreeMap
import Std.Data.ExtTreeSet

/-! Numbers that name nodes and connections. -/

namespace Dataflow

/-- Numbers of nodes and connections have thirty-two bits. -/
def idBound : Nat := Nat.pow 2 32

/-- Slots, versions and bounds have sixty-four bits. -/
def countBound : Nat := Nat.pow 2 64

structure NodeId where
  index : Nat
  deriving DecidableEq, Repr, Inhabited

namespace NodeId

instance : Ord NodeId := ⟨compareOn index⟩

instance : Std.TransOrd NodeId := inferInstanceAs (Std.TransCmp (compareOn index))

instance : Std.LawfulEqOrd NodeId where
  eq_of_compare {a b} h := by
    cases a; cases b
    exact congrArg mk (Std.LawfulEqOrd.eq_of_compare h)

instance : ToString NodeId := ⟨fun id => "#" ++ toString id.index⟩

end NodeId

structure ConnectionId where
  index : Nat
  deriving DecidableEq, Repr, Inhabited

namespace ConnectionId

instance : Ord ConnectionId := ⟨compareOn index⟩

instance : Std.TransOrd ConnectionId := inferInstanceAs (Std.TransCmp (compareOn index))

instance : Std.LawfulEqOrd ConnectionId where
  eq_of_compare {a b} h := by
    cases a; cases b
    exact congrArg mk (Std.LawfulEqOrd.eq_of_compare h)

instance : ToString ConnectionId := ⟨fun id => "c" ++ toString id.index⟩

end ConnectionId

abbrev NodeSet := Std.ExtTreeSet NodeId compare

def NodeSet.ofList (ids : List NodeId) : NodeSet := Std.ExtTreeSet.ofList ids compare

end Dataflow
