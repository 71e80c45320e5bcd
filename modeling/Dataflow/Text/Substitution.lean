/-! Replacing every occurrence of a word. -/

namespace Dataflow.Text

/-- Occurrences are taken from the left and do not overlap; `skip` characters are still part of
the last one. -/
def substituteFrom (word new : List Char) : (skip : Nat) → List Char → List Char
  | _, [] => []
  | skip + 1, _ :: cs => substituteFrom word new skip cs
  | 0, c :: cs =>
    if word.isPrefixOf (c :: cs) then new ++ substituteFrom word new (word.length - 1) cs
    else c :: substituteFrom word new 0 cs

def substitute (word new text : String) : String :=
  .ofList (substituteFrom word.toList new.toList 0 text.toList)

example : substitute "aa" "b" "aaaxa" = "baxa" := by decide +kernel

end Dataflow.Text
