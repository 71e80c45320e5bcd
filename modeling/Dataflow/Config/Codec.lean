import Dataflow.Config.Basic
import Dataflow.Document.Decoder
import Dataflow.Document.Reader
import Dataflow.Graph.Codec

/-! Settings as text. -/

namespace Dataflow.Config

open Document (Decoder)

def toDocument (c : Config) : Document :=
  .record [("name", .str c.name), ("track_statistics", .bool c.tracksStatistics),
    ("max_combinations", .nat c.maxCombinations)]

/-- Every setting may be left out. -/
def decoder : Decoder Config :=
  Decoder.record ["name", "track_statistics", "max_combinations"] fun depth fields => do
    return {
      name := ← Decoder.defaulted Decoder.text default.name "name" depth fields
      tracksStatistics :=
        ← Decoder.defaulted Decoder.bool default.tracksStatistics "track_statistics" depth fields
      maxCombinations :=
        ← Decoder.defaulted (Decoder.nat countBound) default.maxCombinations "max_combinations"
          depth fields }

def ofText? (s : String) : Option Config := (Document.parse? s).bind (Decoder.run decoder)

end Dataflow.Config
