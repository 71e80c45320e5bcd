import Mathlib.Data.Fintype.Basic
import Mathlib.Tactic.FinCases
import Dataflow.Document.Token
import Dataflow.Document.Writer
import Dataflow.Proofs.Decimal.Numeral

/-! The tokens of a document as it is written.

The relation `Token.Scans` is what `Token.scan` computes. It is put together part by part, as the
text is by `prettyChars`. -/

namespace Dataflow.Document

open Decimal (Numeral)

namespace Token

variable {c : Char} {cs rest : List Char} {ts : List Token}

/-! ## Strings -/

theorem hexDigit?_digitChar : ∀ n < 16, hexDigit? (Nat.digitChar n) = some n := by decide

/-- The text is read as one piece of a string, which stands for the character. -/
def Spells (cs : List Char) (c : Char) : Prop :=
  ∃ p : Piece, (∀ ps, Piece.join (p :: ps) = (Piece.join ps).map (c :: ·)) ∧
    ∀ rest, takePieces (cs ++ rest) = (takePieces rest).map fun r => (p :: r.1, r.2)

theorem spells_letter {e : Char} (he : escaped? e = some c) (hu : e ≠ 'u') :
    Spells ['\\', e] c := by
  refine ⟨.char c, fun ps => rfl, fun rest => ?_⟩
  rw [List.cons_append, List.singleton_append, takePieces]
  · simp only [he]
    cases takePieces rest <;> rfl
  · intro a b c d rest h _
    exact hu h

/-- A unit below the surrogates stands for itself. -/
theorem join_unit {n : Nat} (h : n < 0xD800) (ps : List Piece) :
    Piece.join (.unit n :: ps) = (Piece.join ps).map (Char.ofNat n :: ·) := by
  have hlow : ¬0xD800 ≤ n := by omega
  rcases ps with _ | ⟨_ | low, ps⟩
  · simp [Piece.join, hlow]
  · simp [Piece.join, hlow]
  · rw [Piece.join, if_neg fun h => hlow h.1, if_neg fun h => hlow h.1]

theorem spells_hex (h : c.toNat < 0x20) :
    Spells ['\\', 'u', '0', '0', Nat.digitChar (c.toNat / 16), Nat.digitChar (c.toNat % 16)] c := by
  have hfour : hexFour? '0' '0' (Nat.digitChar (c.toNat / 16)) (Nat.digitChar (c.toNat % 16)) =
      some c.toNat := by
    rw [hexFour?, hexDigit?_digitChar _ (by omega), hexDigit?_digitChar _ (by omega)]
    exact congrArg some (by omega)
  refine ⟨.unit c.toNat, fun ps => ?_, fun rest => ?_⟩
  · rw [join_unit (by omega), Char.ofNat_toNat]
  · simp only [List.cons_append, List.nil_append, takePieces, hfour]
    cases takePieces rest <;> rfl

theorem spells_self (hquote : c ≠ '"') (hslash : c ≠ '\\') (h : ¬c.toNat < 0x20) :
    Spells [c] c := by
  refine ⟨.char c, fun ps => rfl, fun rest => ?_⟩
  rw [List.singleton_append, takePieces, if_neg (not_or.2 ⟨h, hslash⟩)]
  · cases takePieces rest <;> rfl
  · exact hquote
  · exact fun _ _ _ _ _ hc => absurd hc hslash
  · exact fun _ _ hc => absurd hc hslash

/-- What a character is written as stands for it. -/
theorem spells_escapeChar (c : Char) : Spells (escapeChar c) c := by
  unfold escapeChar
  iterate 7
    split
    next h =>
      subst h
      exact spells_letter rfl (by decide)
  split
  next h => exact spells_hex h
  next hquote hslash _ _ _ _ _ h => exact spells_self hquote hslash h

theorem exists_pieces (cs : List Char) : ∃ ps, Piece.join ps = some cs ∧
    ∀ rest, takePieces (cs.flatMap escapeChar ++ '"' :: rest) = some (ps, rest) := by
  induction cs with
  | nil => exact ⟨[], rfl, fun _ => rfl⟩
  | cons c cs ih =>
    obtain ⟨p, hp, htake⟩ := spells_escapeChar c
    obtain ⟨ps, hps, ih⟩ := ih
    refine ⟨p :: ps, by rw [hp, hps]; rfl, fun rest => ?_⟩
    rw [List.flatMap_cons, List.append_assoc, htake, ih]
    rfl

/-- A string in quotes is a token, whether or not it has characters. -/
theorem take_quote (k : Option String) (rest : List Char) :
    take (quote k ++ rest) = some (.text k, rest) := by
  cases k with
  | none => rfl
  | some s =>
    obtain ⟨ps, hps, htake⟩ := exists_pieces s.toList
    have hchars : quote (some s) ++ rest =
        '"' :: (s.toList.flatMap escapeChar ++ '"' :: rest) := by simp [quote]
    rw [hchars, take, htake]
    simp [hps]

/-! ## Numbers -/

/-- A number starts with a minus or a digit. -/
theorem exists_head {n : Numeral} (h : n.Proper) :
    ∃ c cs, n.chars = c :: cs ∧ (c = '-' ∨ ∃ d : Decimal.Digit, c = d.char) := by
  obtain ⟨d, ds, hds⟩ := List.exists_cons_of_ne_nil h.whole
  have hchars := Numeral.chars_append n []
  rw [List.append_nil] at hchars
  rw [hchars, hds]
  cases n.negative with
  | true => exact ⟨_, _, rfl, .inl rfl⟩
  | false => exact ⟨_, _, rfl, .inr ⟨d, rfl⟩⟩

theorem take_number {n : Numeral} (h : n.Proper) (hrest : Numeral.Apart rest) :
    take (n.chars ++ rest) = some (.number n, rest) := by
  have hnumeral := h.take_chars hrest
  have hfall : take (n.chars ++ rest) =
      (Numeral.take (n.chars ++ rest)).map fun r => (.number r.1, r.2) := by
    obtain ⟨c, cs, hchars, rfl | ⟨d, rfl⟩⟩ := exists_head h
    · rw [hchars]
      rfl
    · rw [hchars]
      fin_cases d <;> rfl
  rw [hfall, hnumeral]
  rfl

/-! ## Scanning -/

theorem isSpace_digit (d : Decimal.Digit) : isSpace d.char = false := by
  revert d
  decide

/-- The tokens of a text, with white space anywhere between them. -/
inductive Scans : List Char → List Token → Prop
  | nil : Scans [] []
  | space {c : Char} {cs : List Char} {ts : List Token} : isSpace c → Scans cs ts →
    Scans (c :: cs) ts
  | token {c : Char} {cs rest : List Char} {t : Token} {ts : List Token} : isSpace c = false →
    take (c :: cs) = some (t, rest) → rest.length ≤ cs.length → Scans rest ts →
    Scans (c :: cs) (t :: ts)

theorem Scans.scan (h : Scans cs ts) : scan cs = some ts := by
  suffices ∀ fuel, cs.length ≤ fuel → scanWithin fuel cs = some ts from this _ (Nat.le_refl _)
  induction h with
  | nil => exact fun fuel _ => by rw [scanWithin]
  | space hc _ ih =>
    rintro (_ | fuel) hfuel
    · cases hfuel
    · rw [scanWithin, if_pos hc]
      exact ih fuel (Nat.le_of_succ_le_succ hfuel)
  | token hc htake hlen _ ih =>
    rintro (_ | fuel) hfuel
    · cases hfuel
    · rw [scanWithin, if_neg (by simp [hc]), htake]
      have hrest := ih fuel (Nat.le_trans hlen (Nat.le_of_succ_le_succ hfuel))
      simp [hrest]

theorem Scans.newLine (h : Scans cs ts) (level : Nat) : Scans (newLine level ++ cs) ts := by
  have spaces (n : Nat) : Scans (List.replicate n ' ' ++ cs) ts := by
    induction n with
    | zero => exact h
    | succ n ih => exact .space rfl ih
  exact .space rfl (spaces _)

theorem Scans.quote (h : Scans cs ts) (k : Option String) :
    Scans (quote k ++ cs) (.text k :: ts) := by
  have htake := take_quote k cs
  cases k with
  | none => exact .token rfl htake (by simp +arith) h
  | some s => exact .token rfl htake (by simp +arith) h

theorem Scans.number (h : Scans cs ts) {n : Numeral} (hn : n.Proper) (hcs : Numeral.Apart cs) :
    Scans (n.chars ++ cs) (.number n :: ts) := by
  have htake := take_number hn hcs
  obtain ⟨c, rest, hchars, hc⟩ := exists_head hn
  rw [hchars, List.cons_append] at htake ⊢
  refine .token ?_ htake (by simp) h
  rcases hc with rfl | ⟨d, rfl⟩
  · rfl
  · exact isSpace_digit d

theorem Scans.word (h : Scans cs ts) (b : Bool) : Scans (word b ++ cs) (.bool b :: ts) := by
  cases b <;> exact .token rfl rfl (by simp +arith) h

end Token

/-! ## Documents -/

mutual

def tokens : Document → List Token
  | null => [.null]
  | bool b => [.bool b]
  | number n => [.number n]
  | text s => [.text s]
  | array [] => [.openArray, .closeArray]
  | array (d :: ds) => .openArray :: (tokens d ++ itemTokens ds)
  | object [] => [.openObject, .closeObject]
  | object ((k, d) :: fs) => .openObject :: .text k :: .colon :: (tokens d ++ fieldTokens fs)

/-- What follows an item, up to the closing bracket. -/
def itemTokens : List Document → List Token
  | [] => [.closeArray]
  | d :: ds => .comma :: (tokens d ++ itemTokens ds)

/-- What follows a field, up to the closing brace. -/
def fieldTokens : List (Option String × Document) → List Token
  | [] => [.closeObject]
  | (k, d) :: fs => .comma :: .text k :: .colon :: (tokens d ++ fieldTokens fs)

end

/-- All numbers in it are written as numerals are. -/
inductive Proper : Document → Prop
  | null : Proper null
  | bool (b : Bool) : Proper (bool b)
  | number {n : Numeral} : n.Proper → Proper (number n)
  | text (s : Option String) : Proper (text s)
  | array {ds : List Document} : (∀ d ∈ ds, Proper d) → Proper (array ds)
  | object {fs : List (Option String × Document)} : (∀ kd ∈ fs, Proper kd.2) → Proper (object fs)

open Token

variable {cs : List Char} {ts : List Token}

theorem apart_prettyItems (level : Nat) (ds : List Document) :
    Numeral.Apart (prettyItems level ds ++ cs) := by
  cases ds with
  | nil => exact Numeral.apart_cons (by decide)
  | cons d ds => exact Numeral.apart_cons (by decide)

theorem apart_prettyFields (level : Nat) (fs : List (Option String × Document)) :
    Numeral.Apart (prettyFields level fs ++ cs) := by
  cases fs with
  | nil => exact Numeral.apart_cons (by decide)
  | cons d ds => exact Numeral.apart_cons (by decide)

theorem Token.Scans.mark {c : Char} {t : Token} (h : Scans cs ts) (hc : isSpace c = false)
    (ht : ∀ cs, take (c :: cs) = some (t, cs)) : Scans (c :: cs) (t :: ts) :=
  .token hc (ht cs) (Nat.le_refl _) h

/-- A value stands after a colon and a space. -/
theorem Token.Scans.value (h : Scans cs ts) : Scans (':' :: ' ' :: cs) (.colon :: ts) :=
  .mark (.space rfl h) rfl fun _ => rfl

mutual

/-- The tokens of a document are found in its text, part by part as it is nested. What follows the
document must not be taken for more of a number, hence `Numeral.Apart`. -/
theorem scans_pretty : ∀ (level : Nat) {d : Document} {cs : List Char} {ts : List Token},
    d.Proper → Numeral.Apart cs → Scans cs ts → Scans (prettyChars level d ++ cs) (tokens d ++ ts)
  | _, null, _, _, _, _, h => .token rfl rfl (by simp +arith) h
  | _, bool b, _, _, _, _, h => h.word b
  | _, number n, _, _, hd, hcs, h => by
    cases hd with
    | number hn => exact h.number hn hcs
  | _, text s, _, _, _, _, h => h.quote s
  | _, array [], _, _, _, _, h => .mark (.mark h rfl fun _ => rfl) rfl fun _ => rfl
  | level, array (d :: ds), _, _, hd, _, h => by
    cases hd with
    | array hds =>
      obtain ⟨hd, hds⟩ := List.forall_mem_cons.1 hds
      have hfirst := scans_pretty (level + 1) hd (apart_prettyItems level ds)
        (scans_prettyItems level hds h)
      simpa [prettyChars, tokens] using
        Scans.mark (hfirst.newLine (level + 1)) (c := '[') rfl fun _ => rfl
  | _, object [], _, _, _, _, h => .mark (.mark h rfl fun _ => rfl) rfl fun _ => rfl
  | level, object ((k, d) :: fs), _, _, hd, _, h => by
    cases hd with
    | object hfs =>
      obtain ⟨hd, hfs⟩ := List.forall_mem_cons.1 hfs
      have hfirst := scans_pretty (level + 1) hd (apart_prettyFields level fs)
        (scans_prettyFields level hfs h)
      simpa [prettyChars, tokens] using
        Scans.mark ((hfirst.value.quote k).newLine (level + 1)) (c := '{') rfl fun _ => rfl

theorem scans_prettyItems : ∀ (level : Nat) {ds : List Document} {cs : List Char}
    {ts : List Token}, (∀ d ∈ ds, d.Proper) → Scans cs ts →
      Scans (prettyItems level ds ++ cs) (itemTokens ds ++ ts)
  | level, [], _, _, _, h => by
    simpa [prettyItems, itemTokens] using
      Scans.newLine (.mark h (c := ']') rfl fun _ => rfl) level
  | level, d :: ds, _, _, hds, h => by
    obtain ⟨hd, hds⟩ := List.forall_mem_cons.1 hds
    have hfirst := scans_pretty (level + 1) hd (apart_prettyItems level ds)
      (scans_prettyItems level hds h)
    simpa [prettyItems, itemTokens] using
      Scans.mark (hfirst.newLine (level + 1)) (c := ',') rfl fun _ => rfl

theorem scans_prettyFields : ∀ (level : Nat) {fs : List (Option String × Document)}
    {cs : List Char} {ts : List Token}, (∀ kd ∈ fs, kd.2.Proper) → Scans cs ts →
      Scans (prettyFields level fs ++ cs) (fieldTokens fs ++ ts)
  | level, [], _, _, _, h => by
    simpa [prettyFields, fieldTokens] using
      Scans.newLine (.mark h (c := '}') rfl fun _ => rfl) level
  | level, (k, d) :: fs, _, _, hfs, h => by
    obtain ⟨hd, hfs⟩ := List.forall_mem_cons.1 hfs
    have hfirst := scans_pretty (level + 1) hd (apart_prettyFields level fs)
      (scans_prettyFields level hfs h)
    simpa [prettyFields, fieldTokens] using
      Scans.mark ((hfirst.value.quote k).newLine (level + 1)) (c := ',') rfl fun _ => rfl

end

end Dataflow.Document
