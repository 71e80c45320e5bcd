/-! The settings of a session. -/

namespace Dataflow

structure Config where
  name : String
  tracksStatistics : Bool
  maxCombinations : Nat
  deriving DecidableEq, Repr

namespace Config

def default : Config := ⟨"untitled", true, 10000⟩

/-- At least one combination is always allowed. -/
def limit (c : Config) : Nat := max c.maxCombinations 1

end Config

end Dataflow
