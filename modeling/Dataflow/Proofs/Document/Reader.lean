import Dataflow.Document.Reader
import Dataflow.Proofs.Document.Token

/-! A document reads back from its text.

Its tokens are found in the text (`scans_pretty`), and from these it is read (`take_tokens`). -/

namespace Dataflow.Document

variable {d : Document}

/-- The tokens of a document do not begin with the bracket that closes an array. -/
theorem tokens_cons (d : Document) : ∃ t ts, tokens d = t :: ts ∧ t ≠ .closeArray := by
  cases d with
  | array ds => cases ds <;> exact ⟨_, _, rfl, nofun⟩
  | object fs => cases fs <;> exact ⟨_, _, rfl, nofun⟩
  | _ => exact ⟨_, _, rfl, nofun⟩

mutual

/-- A document is read from its tokens, and no more is taken. The induction is on the document; two
steps of fuel for each token are enough. -/
theorem take_tokens : ∀ (d : Document) (rest : List Token) (fuel : Nat),
    2 * (tokens d).length ≤ fuel → take fuel (tokens d ++ rest) = some (d, rest)
  | _, _, 0, hfuel => by
    obtain ⟨t, ts, hd, -⟩ := tokens_cons ‹_›
    simp [hd] at hfuel
  | null, _, _ + 1, _ => rfl
  | bool b, _, _ + 1, _ => rfl
  | number n, _, _ + 1, _ => rfl
  | text s, _, _ + 1, _ => rfl
  | array [], _, _ + 1, _ => rfl
  | array (d :: ds), rest, fuel + 1, hfuel => by
    simp only [tokens, List.length_cons, List.length_append] at hfuel
    have hitems := takeItems_tokens d ds rest fuel (by omega)
    obtain ⟨t, ts, hd, ht⟩ := tokens_cons d
    simp only [tokens, List.cons_append, List.append_assoc]
    rw [hd] at hitems ⊢
    rw [List.cons_append, take, ← List.cons_append, hitems]
    · rfl
    · exact fun _ h => ht (List.cons.inj h).1
  | object [], _, _ + 1, _ => rfl
  | object ((k, d) :: fs), rest, fuel + 1, hfuel => by
    simp only [tokens, List.length_cons, List.length_append] at hfuel
    have hfields := takeFields_tokens k d fs rest fuel (by omega)
    simp only [tokens, List.cons_append, List.append_assoc]
    rw [take, hfields]
    · rfl
    · exact fun _ h => nomatch (List.cons.inj h).1

theorem takeItems_tokens : ∀ (d : Document) (ds : List Document) (rest : List Token) (fuel : Nat),
    2 * ((tokens d).length + (itemTokens ds).length) ≤ fuel →
      takeItems fuel (tokens d ++ (itemTokens ds ++ rest)) = some (d :: ds, rest)
  | d, [], rest, 0, hfuel => by
    simp [itemTokens] at hfuel
  | d, [], rest, fuel + 1, hfuel => by
    simp only [itemTokens, List.length_cons, List.length_nil] at hfuel
    rw [takeItems, take_tokens d _ fuel (by omega)]
    rfl
  | d, d' :: ds, rest, 0, hfuel => by
    simp [itemTokens] at hfuel
  | d, d' :: ds, rest, fuel + 1, hfuel => by
    simp only [itemTokens, List.length_cons, List.length_append] at hfuel
    have hitems := takeItems_tokens d' ds rest fuel (by omega)
    rw [takeItems, take_tokens d _ fuel (by omega)]
    simp [itemTokens, hitems]

theorem takeFields_tokens : ∀ (k : Option String) (d : Document)
    (fs : List (Option String × Document)) (rest : List Token) (fuel : Nat),
    2 * ((tokens d).length + (fieldTokens fs).length) ≤ fuel →
      takeFields fuel (.text k :: .colon :: (tokens d ++ (fieldTokens fs ++ rest))) =
        some ((k, d) :: fs, rest)
  | k, d, [], rest, 0, hfuel => by
    simp [fieldTokens] at hfuel
  | k, d, [], rest, fuel + 1, hfuel => by
    simp only [fieldTokens, List.length_cons, List.length_nil] at hfuel
    rw [takeFields, take_tokens d _ fuel (by omega)]
    rfl
  | k, d, (k', d') :: fs, rest, 0, hfuel => by
    simp [fieldTokens] at hfuel
  | k, d, (k', d') :: fs, rest, fuel + 1, hfuel => by
    simp only [fieldTokens, List.length_cons, List.length_append] at hfuel
    have hfields := takeFields_tokens k' d' fs rest fuel (by omega)
    rw [takeFields, take_tokens d _ fuel (by omega)]
    simp [fieldTokens, hfields]

end

theorem ofTokens?_tokens (d : Document) : ofTokens? (tokens d) = some d := by
  have h := take_tokens d [] _ (Nat.le_refl _)
  rw [List.append_nil] at h
  rw [ofTokens?, h]

/-- A document whose numbers are written as numerals are reads back from its text. -/
theorem parse?_pretty (h : d.Proper) : parse? d.pretty = some d := by
  have hscan := (scans_pretty 0 h Decimal.Numeral.apart_nil .nil).scan
  rw [List.append_nil, List.append_nil] at hscan
  rw [parse?, pretty, String.toList_ofList, hscan]
  exact ofTokens?_tokens d

end Dataflow.Document
